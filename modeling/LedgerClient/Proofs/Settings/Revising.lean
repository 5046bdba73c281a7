import LedgerClient.Proofs.Settings.Writing
import LedgerClient.Settings.Client
import LedgerClient.Settings.Overlay
import Mathlib.Data.List.Nodup

/-!
# Revised settings

Settings are written with every field, and may then be revised: in each table, keys that may be
missing are deleted and unknown keys are added, wherever the table stands.

`ClientSettings.read?_revised` says that settings are read back as they were written, and that
revised ones are read with the default of each part that was deleted and are otherwise the same.
-/

namespace LedgerClient.Settings

/-! ## Changes of a table -/

/-- What is changed in a table that has `required` and `optional` keys. -/
structure Change (required optional : List String) where
  deleted : List String := []
  added : List (String × Tree) := []
  optional_of_mem : ∀ k ∈ deleted, k ∈ optional := by simp
  unknown_of_mem : ∀ e ∈ added, e.1 ∉ required ++ optional := by simp

namespace Change

variable {required optional : List String} (c : Change required optional)

/-- The change makes `new` of the table `old`.  The entries may stand in any order. -/
def Makes (old new : Tree) : Prop :=
  ∃ es es', old = .table es ∧ new = .table es' ∧
    ∀ e, e ∈ es' ↔ e ∈ es ∧ e.1 ∉ c.deleted ∨ e ∈ c.added

/-- The value of a field after the change: its default if its key is deleted. -/
def keep {α : Type} (key : String) (default value : α) : α :=
  if key ∈ c.deleted then default else value

/-- The value that a field is read from after the change. -/
def kept (e : String × Tree) : Option Tree := if e.1 ∈ c.deleted then none else some e.2

end Change

/-! ### Looking keys up -/

theorem Tree.find?_eq_some_of_mem {es : List (String × Tree)} {k : String} {v : Tree}
    (hmem : (k, v) ∈ es) (hunique : ∀ w, (k, w) ∈ es → w = v) : Tree.find? k es = some v := by
  induction es with
  | nil => cases hmem
  | cons e es ih =>
    rw [Tree.find?]
    split
    · rename_i hk
      subst hk
      exact congrArg some (hunique e.2 List.mem_cons_self)
    · rename_i hk
      obtain rfl | hmem := List.mem_cons.1 hmem
      · exact absurd rfl hk
      · exact ih hmem fun w hw => hunique w (List.mem_cons_of_mem e hw)

theorem Tree.find?_eq_none_of_forall {es : List (String × Tree)} {k : String}
    (h : ∀ v, (k, v) ∉ es) : Tree.find? k es = none := by
  induction es with
  | nil => rfl
  | cons e es ih =>
    rw [Tree.find?, if_neg (by rintro rfl; exact h e.2 List.mem_cons_self)]
    exact ih fun v hv => h v (List.mem_cons_of_mem e hv)

variable {required optional : List String} {c : Change required optional} {d : Dialect} {t : Tree}

/-- The fields of a changed table are those that it had, except the deleted ones. -/
theorem Change.Makes.fields? {es : List (String × Tree)} (h : c.Makes (.table es) t)
    (hes : es.map Prod.fst = required ++ optional) (hkeys : (required ++ optional).Nodup) :
    d.fields? (required ++ optional) t = some (es.map c.kept) := by
  obtain ⟨_, es', ⟨⟩, rfl, hmem⟩ := h
  have hadded : ∀ e ∈ es, ∀ v, (e.1, v) ∉ c.added := by
    intro e he v hv
    have hknown : e.1 ∈ required ++ optional := hes ▸ List.mem_map_of_mem he
    exact c.unknown_of_mem _ hv hknown
  rw [← hes, Dialect.fields?, List.map_map, Option.some.injEq, List.map_inj_left]
  intro e he
  show Tree.find? e.1 es' = c.kept e
  rw [Change.kept]
  split
  · rename_i hdeleted
    refine Tree.find?_eq_none_of_forall fun v hv => ?_
    obtain ⟨-, hkept⟩ | hv := (hmem _).1 hv
    · exact hkept hdeleted
    · exact hadded e he v hv
  · rename_i hkept
    refine Tree.find?_eq_some_of_mem ((hmem e).2 (.inl ⟨he, hkept⟩)) fun w hw => ?_
    obtain ⟨hw, -⟩ | hw := (hmem _).1 hw
    · exact congrArg Prod.snd (List.inj_on_of_nodup_map (hes ▸ hkeys) hw he rfl)
    · exact absurd hw (hadded e he w)

/-! ### Reading fields -/

/-- A dialect that reads what settings are written as. -/
structure Dialect.Faithful (d : Dialect) : Prop where
  uint64_number : ∀ n, d.uint64 (number n) = some n
  text_text : ∀ s, d.text (.text s) = some s

theorem uint64OfInt?_toNat (n : UInt64) : uint64OfInt? n.toNat = some n := by
  rw [uint64OfInt?, if_pos ⟨Int.natCast_nonneg _, by exact_mod_cast n.toNat_lt⟩, Int.toNat_natCast,
    UInt64.ofNat_toNat]

theorem Dialect.faithful_strict : Dialect.strict.Faithful where
  uint64_number n := by simp only [Dialect.strict, number, uint64OfInt?_toNat]
  text_text _ := rfl

theorem Dialect.faithful_loose : Dialect.loose.Faithful where
  uint64_number n := by simp only [Dialect.loose, number, uint64OfInt?_toNat]
  text_text _ := rfl

theorem Change.orDefault_kept {α : Type} {read : Tree → Option α} {v : Tree} {value : α}
    (h : read v = some value) (key : String) (default : α) :
    Dialect.orDefault default read (c.kept (key, v)) = some (c.keep key default value) := by
  rw [Change.kept, Change.keep]
  split
  · rfl
  · exact h

theorem Change.optional_kept {read : Tree → Option String} (h : ∀ s, read (.text s) = some s)
    (key : String) (value : Option String) :
    Dialect.optional read (c.kept (key, .ofOption value)) = some (c.keep key none value) := by
  rw [Change.kept, Change.keep]
  split
  · rfl
  · cases value with
    | none => rfl
    | some s => exact congrArg (Option.map some) (h s)

theorem Change.required_kept {α : Type} {read : Tree → Option α} {v : Tree} {key : String}
    (hkey : key ∉ optional) : Dialect.required read (c.kept (key, v)) = read v := by
  rw [Change.kept, if_neg fun hdeleted => hkey (c.optional_of_mem key hdeleted)]
  rfl

/-! ## Revisions -/

/-- What is changed in the deadlines. -/
abbrev DeadlinesChange : Type :=
  Change [] ["dial-ms", "send-ms", "receipt-ms", "query-ms", "blocks-ms", "pier-ms"]

/-- What is changed in the budgets. -/
abbrev RetriesChange : Type :=
  Change [] ["dial-interval-ms", "attempts-per-endpoint", "nonce-attempts", "receipt-attempts",
    "receipt-backoff-ms", "receipt-max-backoff-ms"]

abbrev QueuesChange : Type := Change [] ["subscription-buffer"]

abbrev TlsChange : Type := Change ["ca-cert"] ["client-cert", "client-key", "server-name"]

/-- What is changed in the table of a node and in that of its files. -/
structure NodeRevision where
  own : Change ["addr"] ["tls"] := {}
  tls : TlsChange := {}

/-- What is changed in settings, table by table.  The nodes have numbers. -/
structure Revision where
  own : Change [] ["nodes", "timeouts", "retry", "channels", "key-path"] := {}
  node : Nat → NodeRevision := fun _ => {}
  deadlines : DeadlinesChange := {}
  retries : RetriesChange := {}
  queues : QueuesChange := {}

/-! ### Revised values -/

def Deadlines.revised (c : DeadlinesChange) (d : Deadlines) : Deadlines :=
  let base : Deadlines := {}
  { dialMs := c.keep "dial-ms" base.dialMs d.dialMs
    sendMs := c.keep "send-ms" base.sendMs d.sendMs
    receiptMs := c.keep "receipt-ms" base.receiptMs d.receiptMs
    queryMs := c.keep "query-ms" base.queryMs d.queryMs
    blocksMs := c.keep "blocks-ms" base.blocksMs d.blocksMs
    pierMs := c.keep "pier-ms" base.pierMs d.pierMs }

def Retries.revised (c : RetriesChange) (r : Retries) : Retries :=
  let base : Retries := {}
  { dialIntervalMs := c.keep "dial-interval-ms" base.dialIntervalMs r.dialIntervalMs
    attemptsPerEndpoint :=
      c.keep "attempts-per-endpoint" base.attemptsPerEndpoint r.attemptsPerEndpoint
    nonceAttempts := c.keep "nonce-attempts" base.nonceAttempts r.nonceAttempts
    receiptAttempts := c.keep "receipt-attempts" base.receiptAttempts r.receiptAttempts
    receiptBackoffMs := c.keep "receipt-backoff-ms" base.receiptBackoffMs r.receiptBackoffMs
    receiptMaxBackoffMs :=
      c.keep "receipt-max-backoff-ms" base.receiptMaxBackoffMs r.receiptMaxBackoffMs }

def Queues.revised (c : QueuesChange) (q : Queues) : Queues :=
  let base : Queues := {}
  { subscriptionBuffer :=
      c.keep "subscription-buffer" base.subscriptionBuffer q.subscriptionBuffer }

def TlsMaterial.revised (c : TlsChange) (m : TlsMaterial) : TlsMaterial where
  caCert := m.caCert
  clientCert := c.keep "client-cert" none m.clientCert
  clientKey := c.keep "client-key" none m.clientKey
  serverName := c.keep "server-name" none m.serverName

def Node.revised (r : NodeRevision) (n : Node) : Node where
  address := n.address
  tls := r.own.keep "tls" none (n.tls.map (·.revised r.tls))

/-- Settings with the default of each part that is deleted. -/
def ClientSettings.revised (r : Revision) (s : ClientSettings) : ClientSettings where
  nodes := r.own.keep "nodes" [] (s.nodes.mapIdx fun i n => n.revised (r.node i))
  deadlines := r.own.keep "timeouts" {} (s.deadlines.revised r.deadlines)
  retries := r.own.keep "retry" {} (s.retries.revised r.retries)
  queues := r.own.keep "channels" {} (s.queues.revised r.queues)
  keyPath := r.own.keep "key-path" none s.keyPath

/-! ### Reading what a revision makes -/

theorem Deadlines.read?_of_makes (hd : d.Faithful) {c : DeadlinesChange} {s : Deadlines}
    (h : c.Makes s.toTree t) : read? d t = some (s.revised c) := by
  have hfields := h.fields? (d := d) rfl (by decide)
  rw [List.nil_append] at hfields
  rw [read?, hfields]
  simp only [List.map, Change.orDefault_kept (hd.uint64_number _), Option.bind_eq_bind,
    Option.bind_some]
  rfl

theorem Retries.read?_of_makes (hd : d.Faithful) {c : RetriesChange} {s : Retries}
    (h : c.Makes s.toTree t) : read? d t = some (s.revised c) := by
  have hfields := h.fields? (d := d) rfl (by decide)
  rw [List.nil_append] at hfields
  rw [read?, hfields]
  simp only [List.map, Change.orDefault_kept (hd.uint64_number _), Option.bind_eq_bind,
    Option.bind_some]
  rfl

theorem Queues.read?_of_makes (hd : d.Faithful) {c : QueuesChange} {s : Queues}
    (h : c.Makes s.toTree t) : read? d t = some (s.revised c) := by
  have hfields := h.fields? (d := d) rfl (by decide)
  rw [List.nil_append] at hfields
  rw [read?, hfields]
  simp only [List.map, Change.orDefault_kept (hd.uint64_number _), Option.bind_eq_bind,
    Option.bind_some]
  rfl

theorem TlsMaterial.read?_of_makes (hd : d.Faithful) {c : TlsChange} {s : TlsMaterial}
    (h : c.Makes s.toTree t) : read? d t = some (s.revised c) := by
  have hfields := h.fields? (d := d) rfl (by decide)
  have hrequired : "ca-cert" ∉ ["client-cert", "client-key", "server-name"] := by decide
  rw [List.singleton_append] at hfields
  rw [read?, hfields]
  simp only [List.map, Change.required_kept hrequired, hd.text_text,
    Change.optional_kept hd.text_text, Option.bind_eq_bind, Option.bind_some]
  rfl

/-- The tree `t` is that of a node, revised. -/
def NodeRevision.Makes (r : NodeRevision) (n : Node) (t : Tree) : Prop :=
  ∃ tls, r.own.Makes (.table [("addr", .text n.address), ("tls", tls)]) t ∧
    match n.tls with
    | none => tls = .null
    | some m => r.tls.Makes m.toTree tls

theorem Node.read?_of_makes (hd : d.Faithful) {r : NodeRevision} {n : Node}
    (h : r.Makes n t) : read? d t = some (n.revised r) := by
  obtain ⟨tls, h, htls⟩ := h
  have hfields := h.fields? (d := d) rfl (by decide)
  have hrequired : "addr" ∉ ["tls"] := by decide
  have hoptional : Dialect.optional (TlsMaterial.read? d) (r.own.kept ("tls", tls)) =
      some (r.own.keep "tls" none (n.tls.map (·.revised r.tls))) := by
    rw [Change.kept, Change.keep]
    split
    · rfl
    · cases hn : n.tls with
      | none =>
        rw [hn] at htls
        rw [htls]
        rfl
      | some m =>
        rw [hn] at htls
        obtain ⟨es, es', hold, rfl, hmem⟩ := htls
        have hread := TlsMaterial.read?_of_makes hd (t := .table es') ⟨es, es', hold, rfl, hmem⟩
        rw [Dialect.optional, hread]
        · rfl
        · exact nofun
  rw [List.singleton_append] at hfields
  rw [read?, hfields]
  simp only [List.map, Change.required_kept hrequired, hd.text_text, hoptional,
    Option.bind_eq_bind, Option.bind_some]
  rfl

/-- The tree `t` is that of a list of nodes, each revised. -/
def Revision.MakesNodes (r : Revision) (ns : List Node) (t : Tree) : Prop :=
  ∃ ts, t = .list ts ∧ ts.length = ns.length ∧
    ∀ i n u, ns[i]? = some n → ts[i]? = some u → (r.node i).Makes n u

theorem mapM_eq_some {α β : Type} {read : α → Option β} {as : List α} {bs : List β}
    (hlength : as.length = bs.length)
    (hread : ∀ (i : Nat) a b, as[i]? = some a → bs[i]? = some b → read a = some b) :
    as.mapM read = some bs := by
  induction as generalizing bs with
  | nil =>
    obtain rfl := List.eq_nil_of_length_eq_zero hlength.symm
    rfl
  | cons a as ih =>
    obtain ⟨b, bs, rfl⟩ := List.exists_cons_of_length_eq_add_one hlength.symm
    rw [List.mapM_cons, hread 0 a b rfl rfl,
      ih (Nat.succ.inj hlength) fun i a b ha hb => hread (i + 1) a b ha hb]
    rfl

theorem Revision.listOf_of_makesNodes (hd : d.Faithful) {r : Revision} {ns : List Node}
    (h : r.MakesNodes ns t) :
    Dialect.listOf (Node.read? d) t = some (ns.mapIdx fun i n => n.revised (r.node i)) := by
  obtain ⟨ts, rfl, hlength, hmakes⟩ := h
  refine mapM_eq_some (by rw [hlength, List.length_mapIdx]) fun i u m hu hm => ?_
  rw [List.getElem?_mapIdx, Option.map_eq_some_iff] at hm
  obtain ⟨n, hn, rfl⟩ := hm
  exact Node.read?_of_makes hd (hmakes i n u hn hu)

/-- The tree `t` is that of settings, revised. -/
def Revision.Makes (r : Revision) (s : ClientSettings) (t : Tree) : Prop :=
  ∃ nodes deadlines retries queues, r.MakesNodes s.nodes nodes ∧
    r.deadlines.Makes s.deadlines.toTree deadlines ∧ r.retries.Makes s.retries.toTree retries ∧
    r.queues.Makes s.queues.toTree queues ∧
    r.own.Makes (.table [("nodes", nodes), ("timeouts", deadlines), ("retry", retries),
      ("channels", queues), ("key-path", .ofOption s.keyPath)]) t

theorem ClientSettings.read?_of_makes (hd : d.Faithful) {r : Revision} {s : ClientSettings}
    (h : r.Makes s t) : read? d t = some (s.revised r) := by
  obtain ⟨nodes, deadlines, retries, queues, hnodes, hdeadlines, hretries, hqueues, h⟩ := h
  have hfields := h.fields? (d := d) rfl (by decide)
  rw [List.nil_append] at hfields
  rw [read?, hfields]
  simp only [List.map, Change.orDefault_kept (r.listOf_of_makesNodes hd hnodes),
    Change.orDefault_kept (Deadlines.read?_of_makes hd hdeadlines),
    Change.orDefault_kept (Retries.read?_of_makes hd hretries),
    Change.orDefault_kept (Queues.read?_of_makes hd hqueues),
    Change.optional_kept hd.text_text, Option.bind_eq_bind, Option.bind_some]
  rfl

/-! ### Making revisions -/

/-- A table without the deleted keys, and with the added ones at its end. -/
def Change.apply (c : Change required optional) (t : Tree) : Tree :=
  .table (t.entries.filter (·.1 ∉ c.deleted) ++ c.added)

theorem Change.makes_apply (c : Change required optional) (es : List (String × Tree)) :
    c.Makes (.table es) (c.apply (.table es)) := ⟨_, _, rfl, rfl, by simp [Tree.entries]⟩

def NodeRevision.apply (r : NodeRevision) (n : Node) : Tree :=
  r.own.apply (.table [("addr", .text n.address), ("tls", match n.tls with
    | none => .null
    | some m => r.tls.apply m.toTree)])

theorem NodeRevision.makes_apply (r : NodeRevision) (n : Node) : r.Makes n (r.apply n) := by
  refine ⟨_, r.own.makes_apply _, ?_⟩
  cases n.tls with
  | none => rfl
  | some m => exact r.tls.makes_apply _

/-- The tree of settings with all changes made in it. -/
def Revision.apply (r : Revision) (s : ClientSettings) : Tree :=
  r.own.apply (.table [("nodes", .list (s.nodes.mapIdx fun i n => (r.node i).apply n)),
    ("timeouts", r.deadlines.apply s.deadlines.toTree), ("retry", r.retries.apply s.retries.toTree),
    ("channels", r.queues.apply s.queues.toTree), ("key-path", .ofOption s.keyPath)])

theorem Revision.makes_apply (r : Revision) (s : ClientSettings) : r.Makes s (r.apply s) := by
  refine ⟨_, _, _, _, ⟨_, rfl, List.length_mapIdx, fun i n u hn hu => ?_⟩,
    r.deadlines.makes_apply _, r.retries.makes_apply _, r.queues.makes_apply _,
    r.own.makes_apply _⟩
  rw [List.getElem?_mapIdx, hn] at hu
  cases hu
  exact (r.node i).makes_apply n

theorem Change.apply_self (es : List (String × Tree)) :
    ({} : Change required optional).apply (.table es) = .table es := by
  simp [Change.apply, Tree.entries]

theorem NodeRevision.apply_self (n : Node) : ({} : NodeRevision).apply n = n.toTree := by
  obtain ⟨address, _ | m⟩ := n
  · exact Change.apply_self _
  · exact Change.apply_self _

/-- What is not revised is what was written. -/
theorem Revision.apply_self (s : ClientSettings) : ({} : Revision).apply s = s.toTree := by
  have hnodes : (s.nodes.mapIdx fun _ n => ({} : NodeRevision).apply n) = s.nodes.map Node.toTree :=
    List.ext_getElem? fun i => by
      rw [List.getElem?_mapIdx, List.getElem?_map, funext NodeRevision.apply_self]
  rw [ClientSettings.toTree, ← hnodes]
  exact Change.apply_self _

theorem Node.revised_self (n : Node) : n.revised {} = n := by
  obtain ⟨address, _ | m⟩ := n <;> rfl

theorem ClientSettings.revised_self (s : ClientSettings) : s.revised {} = s := by
  have hnodes : (s.nodes.mapIdx fun _ n => n.revised {}) = s.nodes :=
    List.ext_getElem? fun i => by
      simp only [List.getElem?_mapIdx, Node.revised_self, Option.map_id']
  show { s with nodes := s.nodes.mapIdx fun _ n => n.revised {} } = s
  rw [hnodes]

/-! ## Settings in JSON -/

open Decimal Json

variable {fraction : Binary64 → List Char}

theorem Json.Readable.of_scalar {t : Tree} (h : Readable fraction 0 t) (depth : Nat) :
    Readable fraction depth t := by
  cases h with
  | null => exact .null
  | bool b => exact .bool b
  | int hrange => exact .int hrange
  | float hspelled => exact .float hspelled
  | text s => exact .text s

/-- The added keys differ, and their values are scalars that are read back from their text. -/
structure Change.AddsScalars (fraction : Binary64 → List Char) (c : Change required optional) :
    Prop where
  nodup : (c.added.map Prod.fst).Nodup
  scalar_of_mem : ∀ e ∈ c.added, Readable fraction 0 e.2

structure NodeRevision.AddsScalars (fraction : Binary64 → List Char) (r : NodeRevision) :
    Prop where
  own : r.own.AddsScalars fraction
  tls : r.tls.AddsScalars fraction

structure Revision.AddsScalars (fraction : Binary64 → List Char) (r : Revision) : Prop where
  own : r.own.AddsScalars fraction
  node : ∀ i, (r.node i).AddsScalars fraction
  deadlines : r.deadlines.AddsScalars fraction
  retries : r.retries.AddsScalars fraction
  queues : r.queues.AddsScalars fraction

theorem Change.AddsScalars.readable (h : c.AddsScalars fraction) {es : List (String × Tree)}
    {depth : Nat} (hes : es.map Prod.fst = required ++ optional)
    (hkeys : (required ++ optional).Nodup) (hvalues : ∀ e ∈ es, Readable fraction depth e.2) :
    Readable fraction (depth + 1) (c.apply (.table es)) := by
  refine .table ?_ fun e he => ?_
  · rw [List.map_append, List.nodup_append]
    refine ⟨?_, h.nodup, ?_⟩
    · exact List.Nodup.sublist (List.filter_sublist.map _) (hes ▸ hkeys)
    · rintro k hk _ hadded rfl
      obtain ⟨e, he, rfl⟩ := List.mem_map.1 hk
      obtain ⟨e', he', hee'⟩ := List.mem_map.1 hadded
      have hknown : e.1 ∈ required ++ optional :=
        hes ▸ List.mem_map_of_mem (List.mem_of_mem_filter he)
      exact c.unknown_of_mem e' he' (hee' ▸ hknown)
  · obtain he | he := List.mem_append.1 he
    · exact hvalues e (List.mem_of_mem_filter he)
    · exact (h.scalar_of_mem e he).of_scalar depth

theorem readable_number (n : UInt64) {depth : Nat} : Readable fraction depth (number n) := by
  have := n.toNat_lt
  exact .int (by omega)

theorem readable_ofOption (o : Option String) {depth : Nat} :
    Readable fraction depth (.ofOption o) := by
  cases o with
  | none => exact .null
  | some s => exact .text s

theorem NodeRevision.AddsScalars.readable_apply {r : NodeRevision} (h : r.AddsScalars fraction)
    (n : Node) {depth : Nat} : Readable fraction (depth + 2) (r.apply n) := by
  refine h.own.readable rfl (by decide) ?_
  obtain ⟨address, _ | m⟩ := n
  · simp [Readable.text, Readable.null]
  · have htls : Readable fraction (depth + 1) (r.tls.apply m.toTree) :=
      h.tls.readable rfl (by decide) (by simp [readable_ofOption, Readable.text])
    simp [Readable.text, htls]

/-- Settings with scalars added are not too deep, and no key is there twice. -/
theorem Revision.AddsScalars.readable_apply {r : Revision} (h : r.AddsScalars fraction)
    (s : ClientSettings) : Readable fraction depthLimit (r.apply s) := by
  have hnodes : Readable fraction 126 (.list (s.nodes.mapIdx fun i n => (r.node i).apply n)) := by
    refine .list fun t ht => ?_
    obtain ⟨i, hi, rfl⟩ := List.mem_mapIdx.1 ht
    exact (h.node i).readable_apply _
  have hdeadlines : Readable fraction 126 (r.deadlines.apply s.deadlines.toTree) :=
    h.deadlines.readable rfl (by decide) (by simp [readable_number])
  have hretries : Readable fraction 126 (r.retries.apply s.retries.toTree) :=
    h.retries.readable rfl (by decide) (by simp [readable_number])
  have hqueues : Readable fraction 126 (r.queues.apply s.queues.toTree) :=
    h.queues.readable rfl (by decide) (by simp [readable_number])
  refine h.own.readable rfl (by decide) ?_
  simp [hnodes, hdeadlines, hretries, hqueues, readable_ofOption]

theorem Revision.addsScalars_self (fraction : Binary64 → List Char) :
    ({} : Revision).AddsScalars fraction := by
  have hchange : ∀ {required optional : List String},
      ({} : Change required optional).AddsScalars fraction := ⟨List.nodup_nil, nofun⟩
  exact ⟨hchange, fun _ => ⟨hchange, hchange⟩, hchange, hchange, hchange⟩

/-- Reads settings from a JSON text. -/
def ClientSettings.ofJson? (text : String) : Option ClientSettings :=
  (parse? text).bind (ClientSettings.read? .strict)

/-- Settings are read back from the text that they are written as.  If the text is revised, the
settings that are read have the default of each part that was deleted and are otherwise the same; so
it is also if the keys of the tables stand in any other order, and in either dialect. -/
theorem ClientSettings.read?_revised :
    (∀ (s : ClientSettings) (fraction : Binary64 → List Char),
      ofJson? (write fraction s.toTree) = some s) ∧
    ∀ (r : Revision) (s : ClientSettings),
      (∀ fraction, r.AddsScalars fraction →
        ofJson? (write fraction (r.apply s)) = some (s.revised r)) ∧
      r.Makes s (r.apply s) ∧
      ∀ t, r.Makes s t →
        read? .strict t = some (s.revised r) ∧ read? .loose t = some (s.revised r) ∧
        ∀ text, parse? text = some t → ofJson? text = some (s.revised r) := by
  have htext : ∀ {r : Revision} {s : ClientSettings} {t : Tree} {text : String}, r.Makes s t →
      parse? text = some t → ofJson? text = some (s.revised r) := by
    intro r s t text h htext
    rw [ofJson?, htext]
    exact read?_of_makes Dialect.faithful_strict h
  have hwritten : ∀ {r : Revision} {s : ClientSettings} {fraction : Binary64 → List Char},
      r.AddsScalars fraction → ofJson? (write fraction (r.apply s)) = some (s.revised r) := by
    intro r s fraction h
    exact htext (r.makes_apply s) (parse?_write (h.readable_apply s))
  refine ⟨fun s fraction => ?_, fun r s => ⟨fun fraction h => hwritten h, r.makes_apply s,
    fun t h => ⟨?_, ?_, fun text => htext h⟩⟩⟩
  · have hself := hwritten (s := s) (Revision.addsScalars_self fraction)
    rwa [Revision.apply_self, revised_self] at hself
  · exact read?_of_makes Dialect.faithful_strict h
  · exact read?_of_makes Dialect.faithful_loose h

/-- A node over TLS and a file for the key: the deadline of queries, the name in the certificate and
the file are deleted, and keys are added to every table. -/
theorem ClientSettings.read?_revised_oneNode :
    let s : ClientSettings := {
      nodes := [{ address := "a:1", tls := some { caCert := "ca", serverName := some "a" } }]
      deadlines := { dialMs := 7, queryMs := 8 }
      keyPath := some "key" }
    let r : Revision := {
      own := ⟨["key-path"], [("version", .int (-1))], by decide, by decide⟩
      node := fun _ => {
        own := ⟨[], [("weight", .null)], by decide, by decide⟩
        tls := ⟨["server-name"], [("pinned", .bool true)], by decide, by decide⟩ }
      deadlines := ⟨["query-ms"], [("ping-ms", .int 9)], by decide, by decide⟩
      retries := ⟨[], [("note", .text "")], by decide, by decide⟩
      queues := ⟨[], [("note", .text "\n")], by decide, by decide⟩ }
    let text := write (fun _ => []) (r.apply s)
    r.AddsScalars (fun _ => []) ∧ r.Makes s (r.apply s) ∧ parse? text = some (r.apply s) ∧
      ofJson? text = some {
        nodes := [{ address := "a:1", tls := some { caCert := "ca" } }]
        deadlines := { dialMs := 7 } } := by
  intro s r text
  have hone : ∀ {required optional : List String} {c : Change required optional} {k : String}
      {v : Tree}, c.added = [(k, v)] → Readable (fun _ => []) 0 v → c.AddsScalars fun _ => [] := by
    intro required optional c k v hadded hv
    constructor
    · rw [hadded]
      exact List.nodup_singleton k
    · rw [hadded]
      exact List.forall_mem_singleton.2 hv
  have hadds : r.AddsScalars fun _ => [] :=
    ⟨hone rfl (.int (by decide)), fun _ => ⟨hone rfl .null, hone rfl (.bool true)⟩,
      hone rfl (.int (by decide)), hone rfl (.text ""), hone rfl (.text "\n")⟩
  obtain ⟨-, hmakes, hread⟩ := read?_revised.2 r s
  have hparse : parse? text = some (r.apply s) := parse?_write (hadds.readable_apply s)
  exact ⟨hadds, hmakes, hparse, (hread _ hmakes).2.2 text hparse⟩

end LedgerClient.Settings
