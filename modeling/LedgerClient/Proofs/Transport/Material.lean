import LedgerClient.Proofs.Pool.Interleaving

/-!
# TLS files that are checked, and TLS files that are loaded

The TLS files that settings name are checked once, before a pool is built from the settings, and
loaded whenever an endpoint is dialed.  The check only looks whether there is a regular file; the
loading reads it.  Both ask for the authority's certificate, and for the client's certificate
together with its key or for neither.

`checked_iff_loaded` says that the two agree on any files and settings.  So no endpoint of a pool is
given up over a file that is missing or over half an identity, and no settings are refused over
TLS files that a dial could load.
-/

namespace LedgerClient

open Settings Storage Time Transport

variable {fs : Files} {m : TlsMaterial} {n : Node} {s : ClientSettings} {path : String}

/-! ## One file -/

/-- There is a regular file at a path. -/
def Storage.Files.Holds (fs : Files) (path : String) : Prop :=
  ∃ content, fs.lookup path = .ok (.file content)

theorem requireFile_eq_ok_iff {address field : String} :
    requireFile fs address field path = .ok () ↔ fs.Holds path := by
  rw [requireFile, Files.isFile, Files.Holds]
  rcases fs.lookup path with e | _ | content <;> simp

theorem readMaterial_eq_ok_iff {content : Bytes} :
    readMaterial fs path = .ok content ↔ fs.lookup path = .ok (.file content) := by
  rw [readMaterial, Files.read]
  rcases fs.lookup path with e | _ | content' <;> simp

/-! ## Steps that may fail -/

section steps

variable {ε α β : Type}

theorem bind_eq_ok_iff {x : Except ε α} {f : α → Except ε β} {b : β} :
    (x >>= f) = .ok b ↔ ∃ a, x = .ok a ∧ f a = .ok b := by
  cases x with
  | error e => exact iff_of_false nofun fun ⟨_, ha, _⟩ => nomatch ha
  | ok a => exact ⟨fun h => ⟨a, rfl, h⟩, fun ⟨_, ha, h⟩ => Except.ok.inj ha ▸ h⟩

variable {f : α → Except ε Unit} {as : List α}

theorem forM_eq_ok_iff : as.forM f = .ok () ↔ ∀ a ∈ as, f a = .ok () := by
  induction as with
  | nil => exact iff_of_true rfl (by simp)
  | cons a as ih =>
    show (f a >>= fun _ => as.forM f) = _ ↔ _
    rw [bind_eq_ok_iff, Unique.exists_iff, ih, List.forall_mem_cons]

theorem forM_map_eq {g : α → α} (h : ∀ a ∈ as, f a = f (g a)) :
    (as.map g).forM f = as.forM f := by
  induction as with
  | nil => rfl
  | cons a as ih =>
    show (f (g a) >>= fun _ => (as.map g).forM f) = (f a >>= fun _ => as.forM f)
    rw [h a List.mem_cons_self, ih fun b hb => h b (List.mem_cons_of_mem a hb)]

end steps

namespace Settings

/-! ## The files of a node -/

/-- The files that TLS material names are there, and there is a certificate of the client together
with its key or neither of them. -/
def TlsMaterial.IsComplete (fs : Files) (m : TlsMaterial) : Prop :=
  fs.Holds m.caCert ∧
    ((m.clientCert = none ∧ m.clientKey = none) ∨
      ∃ cert key, m.clientCert = some cert ∧ m.clientKey = some key ∧
        fs.Holds cert ∧ fs.Holds key)

theorem TlsMaterial.validate_eq_ok_iff {address : String} :
    m.validate fs address = .ok () ↔ m.IsComplete fs := by
  rw [validate, IsComplete, bind_eq_ok_iff, Unique.exists_iff, requireFile_eq_ok_iff]
  refine and_congr_right fun _ => ?_
  rcases m.clientCert with _ | cert <;> rcases m.clientKey with _ | key
  case some.some => simp [bind_eq_ok_iff, Unique.exists_iff, requireFile_eq_ok_iff]
  all_goals simp

theorem loadTls_eq_ok_iff : (∃ f, loadTls fs m = .ok f) ↔ m.IsComplete fs := by
  simp only [loadTls, TlsMaterial.IsComplete, bind_eq_ok_iff, readMaterial_eq_ok_iff]
  rw [exists_comm]
  simp only [exists_and_left]
  rcases m.clientCert with _ | cert <;> rcases m.clientKey with _ | key
  case some.some => simp [bind_eq_ok_iff, readMaterial_eq_ok_iff, Files.Holds]
  all_goals simp [Files.Holds]

/-- The TLS material of a node can be loaded, if it has any. -/
def Node.Loads (fs : Files) (n : Node) : Prop :=
  ∀ m, n.tls = some m → ∃ f, loadTls fs m = .ok f

theorem Node.loads_of_validate (h : n.validate fs = .ok ()) : n.Loads fs := by
  intro m hm
  rw [validate, hm] at h
  split at h
  · cases h
  · exact loadTls_eq_ok_iff.2 (TlsMaterial.validate_eq_ok_iff.1 h)

/-- Material that can be loaded makes no difference to the check of its node. -/
theorem Node.validate_of_loads (h : n.Loads fs) :
    n.validate fs = ({ n with tls := none } : Node).validate fs := by
  rw [validate, validate]
  split
  · rfl
  · cases hm : n.tls with
    | none => rfl
    | some m => exact TlsMaterial.validate_eq_ok_iff.2 (loadTls_eq_ok_iff.1 (h m hm))

/-! ## All nodes -/

namespace ClientSettings

/-- The settings without the TLS material of their nodes. -/
def withoutTls (s : ClientSettings) : ClientSettings :=
  { s with nodes := s.nodes.map fun n => { n with tls := none } }

theorem loads_of_validate (h : s.validate fs = .ok ()) : ∀ n ∈ s.nodes, n.Loads fs := by
  rw [validate] at h
  split at h
  · cases h
  · obtain ⟨_, hnodes, -⟩ := bind_eq_ok_iff.1 h
    exact fun n hn => Node.loads_of_validate (forM_eq_ok_iff.1 hnodes n hn)

theorem validate_of_loads (h : ∀ n ∈ s.nodes, n.Loads fs) :
    s.validate fs = s.withoutTls.validate fs := by
  have hnodes : s.withoutTls.nodes.forM (Node.validate fs) = s.nodes.forM (Node.validate fs) :=
    forM_map_eq fun n hn => Node.validate_of_loads (h n hn)
  have hempty : s.withoutTls.nodes.isEmpty = s.nodes.isEmpty := List.isEmpty_map ..
  rw [validate, validate, hnodes, hempty]
  rfl

end ClientSettings
end Settings

/-! ## Dials -/

theorem Pool.ofSettings_eq_ok {rotations : List (List Nat)} {p : Pool}
    (h : ofSettings fs s rotations = .ok p) :
    s.validate fs = .ok () ∧ p = ({
      endpoints := s.nodes, policy := s.retries.dialPolicy s.nodes.length,
      dialTimeout := s.deadlines.dial, rotations } : Pool) := by
  rw [ofSettings] at h
  split at h
  · cases h
  · rename_i hvalid
    rw [ofEndpoints] at h
    split at h
    · cases h
    · exact ⟨hvalid, (Except.ok.inj h).symm⟩

/-- What makes a dial hopeless is the contents of the files, once these can be loaded. -/
theorem unusable_of_prepare {e : DialError} (h : Transport.prepare fs n = .error e)
    (he : e.isPermanent = true) (hloads : n.Loads fs) :
    ∃ m f server, n.tls = some m ∧ loadTls fs m = .ok f ∧ f.isUsable server = false := by
  unfold Transport.prepare at h
  split at h
  · cases h
    cases he
  · cases hm : n.tls with
    | none =>
      rw [hm] at h
      cases h
    | some m =>
      obtain ⟨f, hf⟩ := hloads m hm
      simp only [hm, hf] at h
      split_ifs at h with husable
      exact ⟨m, f, _, rfl, hf, Bool.eq_false_iff.2 husable⟩

/-- The check of the TLS files passes for all nodes exactly if a dial can load the files of every
node.  So of settings that pass the check all files can be loaded; if they can be, it makes no
difference to the check that there are any; and in a pool of checked settings, whatever is done with
it, an endpoint is given up only over what its files say, where a dial is hopeless only if it is so
before a connection is tried. -/
theorem checked_iff_loaded (fs : Files) (s : ClientSettings) :
    ((∀ n ∈ s.nodes, ∀ m, n.tls = some m → m.validate fs n.address = .ok ()) ↔
      ∀ n ∈ s.nodes, n.Loads fs) ∧
    (∀ m, (∃ f, loadTls fs m = .ok f) ↔ m.IsComplete fs) ∧
    (s.validate fs = .ok () → ∀ n ∈ s.nodes, n.Loads fs) ∧
    ((∀ n ∈ s.nodes, n.Loads fs) → s.validate fs = s.withoutTls.validate fs) ∧
    ∀ (rotations : List (List Nat)) (p : Pool) (session : Session) (uses : List Pool.Use),
      Pool.ofSettings fs s rotations = .ok p →
      let start := { session with pool := p }
      (∀ j limit e, ⟨.dial j limit, DialReply.failed e⟩ ∈
          (Pool.after start []).tolds (uses.map Pool.Use.event) → e.isPermanent = true →
        ∃ n, s.nodes[j]? = some n ∧ Transport.prepare fs n = .error e) →
      ∀ j ∈ (Pool.after start uses).shared.pool.disabled,
        ∃ n m f server, s.nodes[j]? = some n ∧ n.tls = some m ∧ loadTls fs m = .ok f ∧
          f.isUsable server = false := by
  refine ⟨?_, fun m => loadTls_eq_ok_iff, ClientSettings.loads_of_validate,
    ClientSettings.validate_of_loads, ?_⟩
  · simp only [Node.Loads, TlsMaterial.validate_eq_ok_iff, loadTls_eq_ok_iff]
  · intro rotations p session uses hp start hprepared j hj
    obtain ⟨hvalid, hpool⟩ := Pool.ofSettings_eq_ok hp
    rw [Acquisitions.party_after] at hj
    rcases (Acquisitions.mem_disabled_run start ⟨p, []⟩ uses).1 hj with hj | ⟨limit, e, htold, he⟩
    · rw [hpool] at hj
      cases hj
    · obtain ⟨n, hn, hprepare⟩ := hprepared j limit e htold he
      obtain ⟨m, f, server, hm⟩ := unusable_of_prepare hprepare he
        (ClientSettings.loads_of_validate hvalid n (List.mem_of_getElem? hn))
      exact ⟨n, m, f, server, hn, hm⟩

/-- The one endpoint of checked settings has a file that can be loaded, by a path from the root, and
a name that no certificate can bear.  It is given up for that name. -/
theorem checked_iff_loaded_badName :
    let fs : Files := { entries := [(["home"], .directory), (["etc", "ca.pem"], .file [])]
                        workingDirectory := ["home"] }
    let m : TlsMaterial := { caCert := "/etc/ca.pem", serverName := some "-" }
    let s : ClientSettings := { nodes := [{ address := "a", tls := some m }] }
    let uses : List Pool.Use :=
      [.acquire, .answer 0 (Pool.dialsAs fun _ => .failed (.tls "a" "transport error"))]
    s.validate fs = .ok () ∧ s.withoutTls.validate fs = .ok () ∧
      ∃ p, Pool.ofSettings fs s [] = .ok p ∧
        0 ∈ (Pool.after { twoEndpoints with pool := p } uses).shared.pool.disabled ∧
        ∃ f server, loadTls fs m = .ok f ∧ f.isUsable server = false := by
  intro fs m s uses
  have hlookup : fs.lookup "/etc/ca.pem" = .ok (.file []) := rfl
  have hmaterial : m.validate fs "a" = .ok () :=
    TlsMaterial.validate_eq_ok_iff.2 ⟨⟨[], hlookup⟩, .inl ⟨rfl, rfl⟩⟩
  have hvalid : s.validate fs = .ok () := by
    have hnode : Node.validate fs { address := "a", tls := some m } = .ok () := by
      rw [Node.validate, if_neg (by decide +kernel)]
      exact hmaterial
    have hnodes : s.nodes.forM (Node.validate fs) = .ok () :=
      forM_eq_ok_iff.2 (List.forall_mem_singleton.2 hnode)
    rw [ClientSettings.validate, hnodes]
    rfl
  have huri : uri { address := "a", tls := some m } = "https://a" := by
    have hscheme : "a".splitOn "://" = ["a"] := by
      rw [String.splitOn, if_neg (by decide)]
      rw [String.splitOnAux, if_neg (by decide +kernel), if_neg (by decide +kernel)]
      rw [String.splitOnAux, if_pos (by decide +kernel)]
      decide +kernel
    rw [uri, hscheme]
    decide +kernel
  have hload : loadTls fs m = .ok ⟨[], none⟩ := by
    have hread : readMaterial fs "/etc/ca.pem" = .ok [] := readMaterial_eq_ok_iff.2 hlookup
    rw [loadTls, hread]
    rfl
  have hparse : Uri.parse? (Text.toUtf8 "https://a") = some [97] := by decide +kernel
  have hprepare : Transport.prepare fs { address := "a", tls := some m } =
      .error (.tls "a" "transport error") := by
    simp only [Transport.prepare, huri, hparse, hload]
    rw [if_neg (by decide +kernel)]
  let p : Pool :=
    { endpoints := s.nodes, policy := s.retries.dialPolicy 1, dialTimeout := s.deadlines.dial }
  have hpool : Pool.ofSettings fs s [] = .ok p := by
    rw [Pool.ofSettings, hvalid]
    rfl
  have hprepared : ∀ j limit e, (⟨.dial j limit, DialReply.failed e⟩ : Network.Told) ∈
      (Pool.after { twoEndpoints with pool := p } []).tolds (uses.map Pool.Use.event) →
      e.isPermanent = true → ∃ n, s.nodes[j]? = some n ∧ Transport.prepare fs n = .error e := by
    intro j limit e htold _
    have htolds : (Pool.after { twoEndpoints with pool := p } []).tolds
        (uses.map Pool.Use.event) =
      [⟨.dial 0 1000, DialReply.failed (.tls "a" "transport error")⟩] := rfl
    rw [htolds] at htold
    cases List.mem_singleton.1 htold
    exact ⟨_, rfl, hprepare⟩
  obtain ⟨-, -, hloads, hbare, hdisabled⟩ := checked_iff_loaded fs s
  refine ⟨hvalid, (hbare (hloads hvalid)).symm.trans hvalid, p, hpool, by decide, ?_⟩
  obtain ⟨n, m', f, server, hn, hm, hf, hunusable⟩ :=
    hdisabled [] p twoEndpoints uses hpool hprepared 0 (by decide)
  cases hn
  cases hm
  exact ⟨f, server, hf, hunusable⟩

end LedgerClient
