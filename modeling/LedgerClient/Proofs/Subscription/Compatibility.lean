import LedgerClient.Proofs.Wire.Extension
import LedgerClient.Subscription.Feed

/-!
# Frames of newer nodes

A newer node may send messages with fields that this library does not have, in a frame itself or in
the data that a frame carries.  `extended_read_alike` says that such a frame is read as the frame
without them is: the feed gets the same item and goes on.  It rests on two laws of every message
type: reading bytes with more bytes behind them is reading the first and merging the second, and
merging passes over fields that the type does not have.
-/

namespace LedgerClient

open Ledger Wire

/-- The data of a frame with fields put in that the kind's messages do not have.  Data that is not
read any further has no such fields. -/
def SubscriptionKind.Extends (kind : SubscriptionKind) (before after : Bytes) : Prop :=
  match kind with
  | blockHeader => Message.Extends BlockHeader before after
  | block => Message.Extends Block before after
  | event => Message.Extends Event before after
  | interchain => Message.Extends Ibtp before after
  | interchainWrapper | unionInterchainWrapper => Message.Extends InterchainWrappers before after
  | evmLog => before = after

/-- A response with fields put in, around its data or inside. -/
inductive ResponseExtends (data : Bytes → Bytes → Prop) (before after : Bytes) : Prop where
  | around (h : Message.Extends Response before after)
  | inside {r r' : Response} (hbefore : Message.decode before = .ok r)
    (hafter : Message.decode after = .ok r') (h : data r.data r'.data)

/-- A frame of a topic with fields put in that its messages do not have. -/
def Topic.Extends (topic : Topic) (before after : Bytes) : Prop :=
  match topic with
  | live kind => ResponseExtends kind.Extends before after
  | audit => ResponseExtends (Message.Extends AuditRecord) before after
  | headers => Message.Extends BlockHeader before after
  | wrappers => Message.Extends InterchainWrappers before after

variable {before after : Bytes}

theorem Item.decode_of_extends {M : Type} [Message M] (h : Message.Extends M before after)
    (what : String) (item : M → Item) : decode what item after = decode what item before := by
  rw [decode, decode, h.decode_eq]

theorem readFrame_of_extends {M : Type} [Message M] (h : Message.Extends M before after) :
    readFrame M after = readFrame M before := by
  rw [readFrame, readFrame, h.decode_eq]

theorem SubscriptionKind.Extends.read_eq {kind : SubscriptionKind} (h : kind.Extends before after) :
    kind.read after = kind.read before := by
  cases kind with
  | evmLog =>
    cases h
    rfl
  | _ => exact Item.decode_of_extends h ..

theorem ResponseExtends.read_eq {data : Bytes → Bytes → Prop}
    {read : Bytes → Except ClientError Item} (h : ResponseExtends data before after)
    (hread : ∀ b a, data b a → read a = read b) :
    readNested read after = readNested read before := by
  cases h with
  | around h => rw [readNested, readNested, readFrame_of_extends h]
  | inside hbefore hafter h =>
    simp only [readNested, readFrame, hbefore, hafter, hread _ _ h]

theorem Topic.Extends.read_eq {topic : Topic} (h : topic.Extends before after) :
    topic.read after = topic.read before := by
  cases topic with
  | live kind => exact ResponseExtends.read_eq h fun _ _ hdata => hdata.read_eq
  | audit => exact ResponseExtends.read_eq h fun _ _ hdata => Item.decode_of_extends hdata ..
  | headers => exact congrArg (Except.map Item.blockHeader) (readFrame_of_extends h)
  | wrappers => exact congrArg (Except.map Item.wrappers) (readFrame_of_extends h)

/-- A worker goes on from an extended frame as it would have gone on from the frame. -/
theorem Feed.step_of_extends {f : Feed} (h : f.topic.Extends before after) (cancelled : Bool) :
    f.step cancelled (some (.data after)) = f.step cancelled (some (.data before)) := by
  simp only [Feed.step, Feed.receive, h.read_eq]

/-- Reading bytes that can be read, with more bytes behind them, is reading the first and merging
the second, with the same message or the same error.  Fields that the type does not have may stand
in between.  A feed reads a frame with such fields as it reads the frame without them, and a frame
that gives it an item does not end it. -/
theorem extended_read_alike :
    (∀ (M : Type) [Message M] (a : Bytes) (m : M), Message.decode a = .ok m → ∀ b : Bytes,
      (Message.decode (a ++ b) : Except DecodeError M) = Message.merge m b ∧
        ∀ u, Message.IsUnknown M u →
          (Message.decode (a ++ u ++ b) : Except DecodeError M) = Message.decode (a ++ b)) ∧
    ∀ (f : Feed) (before after : Bytes), f.topic.Extends before after →
      f.topic.read after = f.topic.read before ∧
      (∀ cancelled, f.step cancelled (some (.data after)) =
        f.step cancelled (some (.data before))) ∧
      ∀ item, f.topic.read before = .ok item → f.phase = .pulling →
        f.step false (some (.data after)) = { f with phase := .pushing item } := by
  refine ⟨fun M _ a m ha b => ⟨Message.decode_append ha b, fun u hu => ?_⟩,
    fun f before after h => ⟨h.read_eq, Feed.step_of_extends h, fun item hitem hphase => ?_⟩⟩
  · exact Message.Extends.decode_eq ⟨a, u, b, m, ha, hu, rfl, rfl⟩
  · rw [← h.read_eq] at hitem
    simp [Feed.step, Feed.receive, hphase, hitem]

/-- A group of number 15 that holds the number 5, spelled with more groups of bits than it needs,
stands in a response and behind a block header.  Neither takes notice. -/
theorem extended_read_alike_group :
    let u : Bytes := [123, 8, 133, 0, 124]
    let feed : Feed :=
      { topic := .live .blockHeader, stream := 0, scope := [], capacity := 1, phase := .pulling }
    (Message.decode ([10, 1, 7] : Bytes) = .ok ({ data := [7] } : Response) ∧
      Message.IsUnknown Response u ∧
      Message.decode ([10, 1, 7] ++ u ++ [10, 1, 9] : Bytes) = .ok ({ data := [9] } : Response)) ∧
    feed.topic.Extends [10, 2, 8, 4] ([10, 7, 8, 4] ++ u) ∧
      feed.step false (some (.data ([10, 7, 8, 4] ++ u))) =
        { feed with phase := .pushing (.blockHeader { number := 4 }) } := by
  intro u feed
  have hnumber : Varint.Spells [133, 0] 5 := by decide +kernel
  have hkey : IsKey [8] 1 .varint := by decide +kernel
  have hopen : IsKey [123] 15 .startGroup := by decide +kernel
  have hclose : IsKey [124] 15 .endGroup := by decide +kernel
  have hinside : SpellsFields 99 [(1, .varint 5)] [8, 133, 0] :=
    @AreFields.cons _ [8] [133, 0] [] 1 (.varint 5) [] hkey hnumber .nil
  have hfields : SpellsFields nestingLimit [(15, .group [(1, .varint 5)])] u :=
    @AreFields.cons _ [123] [8, 133, 0, 124] [] 15 (.group [(1, .varint 5)]) [] hopen
      ⟨_, _, hinside, hclose, rfl⟩ .nil
  have hresponse : Message.decode ([10, 1, 7] : Bytes) = .ok ({ data := [7] } : Response) := by
    decide +kernel
  have hunknown : Message.IsUnknown Response u := ⟨_, hfields, by decide⟩
  have hheader : feed.topic.Extends [10, 2, 8, 4] ([10, 7, 8, 4] ++ u) := by
    have hbefore : Message.decode [10, 2, 8, 4] = .ok ({ data := [8, 4] } : Response) := by
      decide +kernel
    have hafter :
        Message.decode ([10, 7, 8, 4] ++ u) = .ok ({ data := [8, 4] ++ u } : Response) := by
      decide +kernel
    have hdata : Message.Extends BlockHeader [8, 4] ([8, 4] ++ u) :=
      ⟨[8, 4], u, [], { number := 4 }, by decide +kernel, ⟨_, hfields, by decide⟩, rfl, rfl⟩
    exact .inside hbefore hafter hdata
  obtain ⟨hmessages, hfeeds⟩ := extended_read_alike
  refine ⟨⟨hresponse, hunknown, ?_⟩, hheader, ?_⟩
  · rw [(hmessages Response _ _ hresponse [10, 1, 9]).2 u hunknown]
    decide +kernel
  · exact (hfeeds feed _ _ hheader).2.2 _ (by decide +kernel) rfl

end LedgerClient
