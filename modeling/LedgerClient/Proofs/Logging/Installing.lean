import LedgerClient.Logging.Directive
import LedgerClient.Logging.Logger
import LedgerClient.Text.Utf8
import Mathlib.Data.List.Induction

/-!
# Installing a logger more than once

A process has the logger of the first call that could install one, and a later call changes neither
where events go nor which of them pass.  But a call opens its file before it finds out that there is
a logger already, and opening a file empties it.  So a call that installs nothing is without effect
unless there is a logger and the call names a file that can be opened.  It then empties that file,
be it the log itself or another, or makes it if there was none.

`refused_call_empties_iff` says so of any sequence of calls, whatever becomes of the files in
between, and whatever library reads the filters and lets events pass.
-/

namespace LedgerClient

/-! ## Opening a file -/

namespace Storage.Files

variable {fs fs' : Files} {path : String} {names other : List String} {e : Entry}

theorem find?_put_self : (fs.put names e).entries.find? (·.1 == names) = some (names, e) := by
  have hfirst : (fs.entries.filter (·.1 != names)).find? (·.1 == names) = none := by
    simp [List.find?_eq_none]
  rw [put, List.find?_append, hfirst, Option.none_or]
  simp

theorem find?_put_of_ne (h : other ≠ names) :
    (fs.put names e).entries.find? (·.1 == other) = fs.entries.find? (·.1 == other) := by
  have hlast : [(names, e)].find? (·.1 == other) = none := by simp [h.symm]
  rw [put, List.find?_append, hlast, Option.or_none, List.find?_filter]
  congr 1
  funext x
  by_cases hx : x.1 = other <;> simp [hx, h]

theorem any_isPrefixOf_of_eq_some (h : fs.entry? names = some e) (hnames : names ≠ [])
    (hother : other <+: names) : fs.entries.any (fun e => other.isPrefixOf e.1) := by
  unfold entry? at h
  rw [if_neg (by simpa using hnames)] at h
  simp only [List.any_eq_true, List.isPrefixOf_iff_prefix]
  split at h
  · rename_i e' he'
    obtain rfl : e'.1 = names := by simpa using List.find?_some he'
    exact ⟨e', List.mem_of_find?_eq_some he', hother⟩
  · split at h
    · rename_i habove
      obtain ⟨e', he', hunder⟩ := List.any_eq_true.1 habove
      exact ⟨e', he', hother.trans (List.isPrefixOf_iff_prefix.1 hunder)⟩
    · cases h

/-- A file can be opened where it is or could be, by a path that does not ask for a directory. -/
theorem create_eq_ok_iff : fs.create path = .ok (names, fs') ↔
    fs.followFrom path (withoutSlashes (split path)) = .ok names ∧ namesDirectory path = false ∧
      fs.entry? names ≠ some .directory ∧ fs.entry? names.dropLast = some .directory ∧
      fs' = fs.put names (.file []) := by
  rw [create]
  constructor
  · intro h
    split at h
    · cases h
    · rename_i names' hfollow
      split at h
      · cases h
      · rename_i hplain
        simp only [Bool.or_eq_true, decide_eq_true_eq, not_or, Bool.not_eq_true] at hplain
        split at h
        · rename_i hparent
          cases h
          exact ⟨hfollow, hplain.1, hplain.2, hparent, rfl⟩
        · cases h
        · cases h
  · rintro ⟨hfollow, hplain, hentry, hparent, rfl⟩
    simp [hfollow, hplain, hentry, hparent]

-- A path from the root, and one that leaves the working directory, lead to the same file.
example :
    let fs : Files := { entries := [(["home"], .directory), (["tmp"], .directory)]
                        workingDirectory := ["home"] }
    let names := ["tmp", "client.log"]
    fs.create "/tmp/client.log" = .ok (names, fs.put names (.file [])) ∧
      fs.create "../tmp/client.log" = .ok (names, fs.put names (.file [])) := ⟨rfl, rfl⟩

theorem ne_nil_of_create (h : fs.create path = .ok (names, fs')) : names ≠ [] := by
  rintro rfl
  exact (create_eq_ok_iff.1 h).2.2.1 rfl

/-- An entry that is put is below what is above it, and so is whatever was there. -/
theorem any_put : (fs.put names e).entries.any (fun e => other.isPrefixOf e.1) =
    (fs.entries.any (fun e => other.isPrefixOf e.1) || other.isPrefixOf names) := by
  rw [put, List.any_append, List.any_filter, Bool.eq_iff_iff]
  simp only [Bool.or_eq_true, List.any_eq_true, Bool.and_eq_true, List.mem_singleton,
    exists_eq_left]
  constructor
  · rintro (⟨x, hx, -, hunder⟩ | h)
    · exact .inl ⟨x, hx, hunder⟩
    · exact .inr h
  · rintro (⟨x, hx, hunder⟩ | h)
    · by_cases hnames : x.1 = names
      · exact .inr (hnames ▸ hunder)
      · exact .inl ⟨x, hx, by simpa using hnames, hunder⟩
    · exact .inr h

/-- Opening a file changes the entry that the path leads to, and no other. -/
theorem entry?_create (h : fs.create path = .ok (names, fs')) (other : List String) :
    fs'.entry? other = if other = names then some (.file []) else fs.entry? other := by
  have hnames := ne_nil_of_create h
  obtain ⟨-, -, -, hparent, rfl⟩ := create_eq_ok_iff.1 h
  split
  · rename_i heq
    subst heq
    unfold entry?
    rw [if_neg (by simpa using hnames), find?_put_self]
  · rename_i hother
    by_cases hroot : other = []
    · subst hroot
      rfl
    have habove (hunder : other <+: names) :
        fs.entries.any (fun e => other.isPrefixOf e.1) = true := by
      obtain ⟨below, rfl⟩ := hunder
      have hbelow : below ≠ [] := by
        rintro rfl
        exact hother (List.append_nil other).symm
      rw [List.dropLast_append_of_ne_nil hbelow] at hparent
      exact any_isPrefixOf_of_eq_some hparent (by simp [hroot]) (List.prefix_append ..)
    have hany : (fs.put names (.file [])).entries.any (fun e => other.isPrefixOf e.1) =
        fs.entries.any fun e => other.isPrefixOf e.1 := by
      rw [any_put]
      cases hunder : other.isPrefixOf names with
      | false => rw [Bool.or_false]
      | true => rw [habove (List.isPrefixOf_iff_prefix.1 hunder), Bool.or_true]
    unfold entry?
    rw [find?_put_of_ne hother, hany]

end Storage.Files

namespace Logging

open Storage

-- `F` are the filters of a library, and `E` the events that they let pass or not.
variable {F E : Type} (lib : FilterLibrary F E)

/-! ## Calls -/

/-- A call that is to install a logger.  A lenient one takes it for success that there is a logger
already. -/
structure Call where
  settings : LogSettings
  lenient : Bool
  deriving DecidableEq

/-- Settings say where a logger writes, once its file is open: there, and the files are as given. -/
inductive LogSettings.Opens (s : LogSettings) (fs : Files) : Sink → Files → Prop where
  | stdout (h : s.output = .stdout) : Opens s fs .stdout fs
  | file {path : String} {names : List String} {fs' : Files} (h : s.output = .file)
    (hpath : s.filePath = some path) (hcreate : fs.create path = .ok (names, fs')) :
    Opens s fs (.file names) fs'

/-- The settings name a file that can be opened, and these names lead to it. -/
def LogSettings.OpensFile (s : LogSettings) (fs : Files) (names : List String) : Prop :=
  ∃ fs', s.Opens fs (.file names) fs'

/-- The logger of the settings that writes to `sink`. -/
def LogSettings.logger (s : LogSettings) (sink : Sink) : Logger F :=
  ⟨lib.ofText s.level, s.format, sink⟩

/-- What names lead to in a process. -/
def Facility.found? (p : Facility F) (names : List String) : Option Entry := p.files.entry? names

namespace Call

/-- What a call answers, and the process after it. -/
def run (c : Call) (p : Facility F) : Except LoggerError Unit × Facility F :=
  if c.lenient then p.ensureLogger lib c.settings else p.install lib c.settings

/-- The call installs its logger. -/
def Installs (c : Call) (p : Facility F) : Prop := p.logger = none ∧ (c.run lib p).1 = .ok ()

end Call

variable {lib} {p : Facility F} {s : LogSettings} {sink : Sink} {fs : Files}

/-- What is opened, and how the files are then, is a matter of the settings and the files. -/
theorem LogSettings.Opens.unique {sink' : Sink} {fs' : Files} (h : s.Opens p.files sink fs)
    (h' : s.Opens p.files sink' fs') : sink = sink' ∧ fs = fs' := by
  cases h with
  | stdout h =>
    cases h' with
    | stdout => exact ⟨rfl, rfl⟩
    | file h' => cases h.symm.trans h'
  | file h hpath hcreate =>
    cases h' with
    | stdout h' => cases h.symm.trans h'
    | file _ hpath' hcreate' =>
      cases hpath.symm.trans hpath'
      cases hcreate.symm.trans hcreate'
      exact ⟨rfl, rfl⟩

/-- The file that is opened is then empty, and the other entries are as they were. -/
theorem LogSettings.Opens.entries (h : s.Opens p.files sink fs) (names : List String) :
    (s.OpensFile p.files names → fs.entry? names = some (.file [])) ∧
      (¬ s.OpensFile p.files names → fs.entry? names = p.found? names) := by
  have hentry : fs.entry? names =
      if sink = .file names then some (.file []) else p.found? names := by
    cases h with
    | stdout => rfl
    | file _ _ hcreate =>
      rw [Files.entry?_create hcreate, Facility.found?]
      simp only [Sink.file.injEq, eq_comm]
  rw [hentry]
  constructor
  · rintro ⟨fs', hfile⟩
    rw [if_pos (h.unique hfile).1]
  · intro hfile
    rw [if_neg]
    rintro rfl
    exact hfile ⟨fs, h⟩

theorem Facility.install_of_opens (lib : FilterLibrary F E) (h : s.Opens p.files sink fs) :
    p.install lib s = ({ p with files := fs } : Facility F).adopt (s.logger lib sink) := by
  cases h with
  | stdout h => simp only [install, h, LogSettings.logger]
  | file h hpath hcreate => simp only [install, h, hpath, hcreate, LogSettings.logger]

theorem Facility.install_of_not_opens (lib : FilterLibrary F E)
    (h : ∀ sink fs, ¬ s.Opens p.files sink fs) :
    ∃ e, e ≠ .alreadyInitialized ∧ p.install lib s = (.error e, p) := by
  unfold install
  split
  · rename_i hout
    exact absurd (.stdout hout) (h _ _)
  · exact ⟨.missingFilePath, nofun, rfl⟩
  · rename_i path hout hpath
    split
    · exact ⟨.file path _, nofun, rfl⟩
    · rename_i hcreate
      exact absurd (.file hout hpath hcreate) (h _ _)

/-- All that a call can do: it installs its logger, it opens its file and finds a logger there, or
it does nothing. -/
theorem Call.run_cases (lib : FilterLibrary F E) (c : Call) (p : Facility F) :
    (∃ sink fs, c.settings.Opens p.files sink fs ∧ p.logger = none ∧
      c.run lib p = (.ok (), { files := fs, logger := some (c.settings.logger lib sink) })) ∨
    (∃ sink fs l, c.settings.Opens p.files sink fs ∧ p.logger = some l ∧
      c.run lib p = (if c.lenient then .ok () else .error .alreadyInitialized,
        { files := fs, logger := some l })) ∨
    ((∀ sink fs, ¬ c.settings.Opens p.files sink fs) ∧ ∃ e, c.run lib p = (.error e, p)) := by
  by_cases hopens : ∃ sink fs, c.settings.Opens p.files sink fs
  · obtain ⟨sink, fs, hopens⟩ := hopens
    have hinstall := Facility.install_of_opens lib hopens
    cases hlogger : p.logger with
    | none =>
      refine .inl ⟨sink, fs, hopens, rfl, ?_⟩
      simp only [Facility.adopt, hlogger] at hinstall
      unfold run Facility.ensureLogger
      split <;> simp only [hinstall]
    | some l =>
      refine .inr (.inl ⟨sink, fs, l, hopens, rfl, ?_⟩)
      simp only [Facility.adopt, hlogger] at hinstall
      unfold run Facility.ensureLogger
      split <;> simp only [hinstall]
  · have hopens : ∀ sink fs, ¬ c.settings.Opens p.files sink fs :=
      fun sink fs h => hopens ⟨sink, fs, h⟩
    obtain ⟨e, he, hinstall⟩ := Facility.install_of_not_opens lib hopens
    refine .inr (.inr ⟨hopens, e, ?_⟩)
    unfold run Facility.ensureLogger
    split
    · split
      · rename_i heq
        cases hinstall.symm.trans heq
        exact absurd rfl he
      · exact hinstall
    · exact hinstall

theorem Call.installs_iff {c : Call} :
    c.Installs lib p ↔ p.logger = none ∧ ∃ sink fs, c.settings.Opens p.files sink fs := by
  refine and_congr_right fun hnone => ?_
  obtain ⟨sink, fs, hopens, -, hrun⟩ | ⟨_, _, l, -, hsome, -⟩ | ⟨hopens, e, hrun⟩ :=
    c.run_cases lib p
  · exact iff_of_true (by rw [hrun]) ⟨sink, fs, hopens⟩
  · cases hnone.symm.trans hsome
  · exact iff_of_false (by rw [hrun]; exact nofun) fun ⟨sink, fs, h⟩ => hopens sink fs h

/-- What a call opens is then an empty file, and the other entries are as they were. -/
theorem Call.found?_run (lib : FilterLibrary F E) (c : Call) (p : Facility F)
    (names : List String) :
    (c.settings.OpensFile p.files names → (c.run lib p).2.found? names = some (.file [])) ∧
      (¬ c.settings.OpensFile p.files names → (c.run lib p).2.found? names = p.found? names) := by
  obtain ⟨sink, fs, hopens, -, hrun⟩ | ⟨sink, fs, l, hopens, -, hrun⟩ | ⟨hopens, e, hrun⟩ :=
    c.run_cases lib p
  · rw [hrun]
    exact hopens.entries names
  · rw [hrun]
    exact hopens.entries names
  · rw [hrun]
    exact ⟨fun ⟨fs, hfile⟩ => absurd hfile (hopens _ _), fun _ => rfl⟩

/-! ## Any number of calls -/

/-- What may happen in a process, as far as its logger goes. -/
inductive Event where
  | call (c : Call)
  /-- The files become others, by lines of the log or by anybody's hand. -/
  | change (files : Files)

def Event.run (lib : FilterLibrary F E) (p : Facility F) : Event → Facility F
  | call c => (c.run lib p).2
  | change files => { p with files }

/-- A process that began without a logger, after some events. -/
def after (lib : FilterLibrary F E) (fs : Files) (events : List Event) : Facility F :=
  events.foldl (Event.run lib) { files := fs }

variable {l : Logger F} {events : List Event}

/-- A logger stays. -/
theorem Event.run_logger (h : p.logger = some l) (e : Event) : (e.run lib p).logger = some l := by
  cases e with
  | call c =>
    obtain ⟨_, _, _, hnone, -⟩ | ⟨_, _, l', -, hsome, hrun⟩ | ⟨-, e, hrun⟩ := c.run_cases lib p
    · cases h.symm.trans hnone
    · simp only [run, hrun, ← hsome, h]
    · simp only [run, hrun, h]
  | change files => exact h

theorem foldl_run_logger (h : p.logger = some l) (events : List Event) :
    (events.foldl (Event.run lib) p).logger = some l := by
  induction events generalizing p with
  | nil => exact h
  | cons e events ih => exact ih (Event.run_logger h e)

theorem after_append (lib : FilterLibrary F E) (fs : Files) (before later : List Event) :
    after lib fs (before ++ later) = later.foldl (Event.run lib) (after lib fs before) := by
  simp only [after, List.foldl_append]

/-- A process without a logger gets that of a call whose sink can be opened. -/
theorem Call.run_logger_eq_some_iff {c : Call} (h : p.logger = none) :
    (c.run lib p).2.logger = some l ↔
      ∃ sink fs, c.settings.Opens p.files sink fs ∧ l = c.settings.logger lib sink := by
  obtain ⟨sink, fs, hopens, -, hrun⟩ | ⟨_, _, l', -, hsome, -⟩ | ⟨hopens, e, hrun⟩ :=
    c.run_cases lib p
  · rw [hrun]
    constructor
    · intro hl
      exact ⟨sink, fs, hopens, (Option.some.inj hl).symm⟩
    · rintro ⟨sink', fs', hopens', rfl⟩
      rw [(hopens.unique hopens').1]
  · cases h.symm.trans hsome
  · rw [hrun, h]
    exact iff_of_false nofun fun ⟨sink, fs, hopens', _⟩ => hopens sink fs hopens'

/-- The logger is that of the call that installed one. -/
theorem after_logger_eq_some_iff :
    (after lib fs events).logger = some l ↔
      ∃ before c later sink files, events = before ++ .call c :: later ∧
        (after lib fs before).logger = none ∧
        c.settings.Opens (after lib fs before).files sink files ∧
        l = c.settings.logger lib sink := by
  constructor
  · intro h
    induction events using List.reverseRecOn with
    | nil => cases h
    | append_singleton events e ih =>
      rw [after_append] at h
      -- Either there was a logger already, or the last event is the call that is sought.
      cases hbefore : (after lib fs events).logger with
      | some l' =>
        cases (Event.run_logger hbefore e).symm.trans h
        obtain ⟨before, c, later, sink, files, rfl, hrest⟩ := ih hbefore
        exact ⟨before, c, later ++ [e], sink, files, by simp, hrest⟩
      | none =>
        cases e with
        | change files => cases hbefore.symm.trans h
        | call c =>
          obtain ⟨sink, files, hopens, hl⟩ := (Call.run_logger_eq_some_iff hbefore).1 h
          exact ⟨events, c, [], sink, files, rfl, hbefore, hopens, hl⟩
  · rintro ⟨before, c, later, sink, files, rfl, hnone, hopens, hl⟩
    rw [after_append]
    exact foldl_run_logger ((Call.run_logger_eq_some_iff hnone).2 ⟨sink, files, hopens, hl⟩) later

/-- A call that installs no logger leaves the logger as it is. -/
theorem Call.run_logger_of_not_installs {c : Call} (h : ¬ c.Installs lib p) :
    (c.run lib p).2.logger = p.logger := by
  cases hlogger : p.logger with
  | some l => exact Event.run_logger hlogger (.call c)
  | none =>
    obtain ⟨sink, fs, hopens, -, -⟩ | ⟨_, _, l, -, hsome, -⟩ | ⟨-, e, hrun⟩ := c.run_cases lib p
    · exact absurd (installs_iff.2 ⟨hlogger, sink, fs, hopens⟩) h
    · cases hlogger.symm.trans hsome
    · rw [hrun, hlogger]

/-- Events go to the sink of the first call that could install a logger, so far as its filter lets
them pass, and nowhere before such a call.  A call that installs none changes nothing of that.  It
changes the files exactly if there is a logger and the call names a file that can be opened and is
not there and empty already, and then it makes that file empty and leaves the others as they
were. -/
theorem refused_call_empties_iff (lib : FilterLibrary F E) (fs : Files) (events : List Event) :
    let p := after lib fs events
    (∀ before c later, events = before ++ .call c :: later → c.Installs lib (after lib fs before) →
      ∃ sink files, c.settings.Opens (after lib fs before).files sink files ∧
        ∀ place sent, p.delivered lib place sent =
          if sink = place then
            sent.filter (lib.passes (lib.ofText c.settings.level))
          else []) ∧
    ((∀ before c later, events = before ++ .call c :: later →
        ¬ c.Installs lib (after lib fs before)) →
      ∀ place sent, p.delivered lib place sent = []) ∧
    ∀ c : Call, ¬ c.Installs lib p →
      (c.run lib p).2.logger = p.logger ∧
      (∀ names,
        (p.logger.isSome ∧ c.settings.OpensFile p.files names →
          (c.run lib p).2.found? names = some (.file [])) ∧
        (¬ (p.logger.isSome ∧ c.settings.OpensFile p.files names) →
          (c.run lib p).2.found? names = p.found? names)) ∧
      ((∀ names, (c.run lib p).2.found? names = p.found? names) ↔
        ∀ names, p.logger.isSome → c.settings.OpensFile p.files names →
          p.found? names = some (.file [])) := by
  intro p
  refine ⟨?installed, ?nothing, fun c hc => ⟨Call.run_logger_of_not_installs hc, ?_⟩⟩
  case installed =>
    rintro before c later hevents hinstalls
    obtain ⟨hnone, sink, files, hopens⟩ := Call.installs_iff.1 hinstalls
    have hlogger : p.logger = some (c.settings.logger lib sink) :=
      after_logger_eq_some_iff.2 ⟨before, c, later, sink, files, hevents, hnone, hopens, rfl⟩
    refine ⟨sink, files, hopens, fun place sent => ?_⟩
    simp only [Facility.delivered, hlogger, LogSettings.logger]
  case nothing =>
    intro hnever place sent
    have hlogger : p.logger = none := by
      cases hlogger : p.logger with
      | none => rfl
      | some l =>
        obtain ⟨before, c, later, sink, files, hevents, hnone, hopens, -⟩ :=
          after_logger_eq_some_iff.1 hlogger
        exact absurd (Call.installs_iff.2 ⟨hnone, sink, files, hopens⟩)
          (hnever before c later hevents)
    simp only [Facility.delivered, hlogger]
  have hsome {names : List String} (h : c.settings.OpensFile p.files names) : p.logger.isSome := by
    by_contra hnone
    obtain ⟨files, hopens⟩ := h
    exact hc (Call.installs_iff.2 ⟨Option.not_isSome_iff_eq_none.1 hnone, _, files, hopens⟩)
  have hentry (names : List String) := c.found?_run lib p names
  refine ⟨fun names => ⟨fun h => (hentry names).1 h.2,
    fun h => (hentry names).2 fun hopens => h ⟨hsome hopens, hopens⟩⟩, ?_, ?_⟩
  · intro h names _ hopens
    rw [← h names, (hentry names).1 hopens]
  · intro h names
    by_cases hopens : c.settings.OpensFile p.files names
    · rw [(hentry names).1 hopens, h names (hsome hopens) hopens]
    · exact (hentry names).2 hopens

/-- A lenient call that names a file with an old line in it empties the file and answers that all is
well, although the log goes to the standard output as it did before. -/
theorem old_file_emptied :
    let lib := Directive.library
    ∃ (fs : Files) (events : List Event) (c : Call) (names : List String) (line : Bytes),
      ¬ c.Installs lib (after lib fs events) ∧ line ≠ [] ∧
      (after lib fs events).found? names = some (.file line) ∧
      (c.run lib (after lib fs events)).1 = .ok () ∧
      (c.run lib (after lib fs events)).2.found? names = some (.file []) := by
  intro lib
  let line : Bytes := Text.toUtf8 "<app error>\n"
  let fs : Files := { entries := [(["home", "old.log"], .file line)], workingDirectory := ["home"] }
  let fs' : Files := { fs with entries := [(["home", "old.log"], .file [])] }
  let events : List Event := [.call ⟨{}, false⟩]
  let c : Call := ⟨{ output := .file, filePath := some "old.log" }, true⟩
  have hcreate : fs.create "old.log" = .ok (["home", "old.log"], fs') :=
    Files.create_eq_ok_iff.2 ⟨rfl, rfl, by decide, by decide, by decide⟩
  have hrun : c.run lib (after lib fs events) =
      (.ok (), ⟨fs', some (LogSettings.logger lib {} .stdout)⟩) := by
    rw [Call.run, if_pos rfl, Facility.ensureLogger,
      Facility.install_of_opens lib (.file rfl rfl hcreate)]
    rfl
  refine ⟨fs, events, c, ["home", "old.log"], line, fun hinstalls => ?_, by decide +kernel, rfl,
    by rw [hrun], by rw [hrun]; rfl⟩
  cases hinstalls.1

end Logging
end LedgerClient
