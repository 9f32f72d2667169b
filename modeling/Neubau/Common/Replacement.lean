import Neubau.Common.ConfigurationFile

/-! How the configuration file is replaced where something fails. Each system call of a
save may fail, those of the read and those of the write, and the process may be killed
behind any change it makes to a file, also in the middle of a write. A save whose copy of
the file is not cut short leaves the whole document that was saved, or the one before. -/

namespace Neubau.Common

open Toml

/-- A change of one file. -/
inductive FileChange
  | truncate (file : Bytes)
  | append (file : Bytes) (byte : UInt8)
  | rename (source target : Bytes)
  | remove (file : Bytes)
  deriving DecidableEq

def FileChange.apply (fs : FileSystem) : FileChange → FileSystem
  | .truncate file => Function.update fs file (some [])
  | .append file byte => Function.update fs file ((fs file).map (· ++ [byte]))
  | .rename source target => Function.update (Function.update fs target (fs source)) source none
  | .remove file => Function.update fs file none

/-- The files behind some changes. -/
def FileChange.applyAll (changes : List FileChange) (fs : FileSystem) : FileSystem :=
  changes.foldl FileChange.apply fs

/-- How `copy_file` turns out. -/
inductive Copying
  | copied
  | refused (message : String)
  /-- It fails behind so many bytes. -/
  | cut (length : ℕ) (message : String)
  deriving DecidableEq

/-- How the system calls of one save turn out: `existence` is the error of `exists`,
`reading` what keeps `parse_file` from reading a file that exists, `directories` the error
of `create_directories`, and `written` the number of bytes behind which the stream fails. -/
structure Outcome where
  existence : Option String := none
  reading : Option String := none
  directories : Option String := none
  opened : Bool := true
  written : Option ℕ := none
  renamed : Bool := true
  copying : Copying := .copied
  removed : Bool := true
  deriving DecidableEq

/-- `readProperties`, whose system calls may fail. -/
def Outcome.readProperties (w : Outcome) (lib : Library) (fs : FileSystem) (path : Bytes) :
    Except Exception Table :=
  match w.existence with
  | some message => .error (.runtimeError message)
  | none =>
    match fs path, w.reading with
    | some _, some description =>
      .error (.runtimeError ("invalid TOML persistence file: " ++ description))
    | _, _ => Common.readProperties lib fs path

/-- A path, as it stands in a message. -/
def pathText (path : Bytes) : String := String.ofList (path.map fun byte => Char.ofNat byte.toNat)

/-- A file is made empty, and gets the bytes. -/
def rewrite (file text : Bytes) : List FileChange := .truncate file :: text.map (.append file)

/-- `writeProperties`: the changes it makes, and what it returns. -/
def replaceFile (w : Outcome) (path text : Bytes) : List FileChange × Except Exception Unit :=
  -- a path without a slash has no parent
  match if 47 ∈ path then w.directories else none with
  | some message => ([], .error (.runtimeError message))
  | none =>
    let temporary := path ++ ascii ".tmp"
    if w.opened = false then
      ([], .error (.runtimeError
        ("failed to open persistence file for writing: " ++ pathText temporary)))
    else
      match w.written with
      | some length =>
        (rewrite temporary (text.take length), .error (.runtimeError
          ("failed while writing persistence file: " ++ pathText temporary)))
      | none =>
        if w.renamed then (rewrite temporary text ++ [.rename temporary path], .ok ())
        else
          let removal := if w.removed then [.remove temporary] else []
          match w.copying with
          | .copied => (rewrite temporary text ++ rewrite path text ++ removal, .ok ())
          | .refused message =>
            (rewrite temporary text ++ removal,
              .error (.runtimeError ("failed to replace persistence file: " ++ message)))
          | .cut length message =>
            (rewrite temporary text ++ rewrite path (text.take length) ++ removal,
              .error (.runtimeError ("failed to replace persistence file: " ++ message)))

/-- A write that comes to copy the file. -/
def Outcome.Copies (w : Outcome) (path : Bytes) : Prop :=
  (47 ∈ path → w.directories = none) ∧ w.opened = true ∧ w.written = none ∧ w.renamed = false

/-! ### The changes of a write -/

section Changes

variable {fs : FileSystem} {path text : Bytes} {w : Outcome}

open FileChange

theorem applyAll_append (a b : List FileChange) (fs : FileSystem) :
    applyAll (a ++ b) fs = applyAll b (applyAll a fs) := List.foldl_append

/-- The file that a change writes to. -/
def FileChange.Spares (file : Bytes) : FileChange → Prop
  | .truncate f | .append f _ | .remove f => f ≠ file
  | .rename source target => source ≠ file ∧ target ≠ file

theorem apply_spares {c : FileChange} {file : Bytes} (h : c.Spares file) (fs : FileSystem) :
    c.apply fs file = fs file := by
  cases c with
  | rename source target =>
    rw [apply, Function.update_of_ne h.1.symm, Function.update_of_ne h.2.symm]
  | _ => exact Function.update_of_ne (Ne.symm h) _ _

theorem applyAll_spares {changes : List FileChange} {file : Bytes}
    (h : ∀ c ∈ changes, c.Spares file) (fs : FileSystem) : applyAll changes fs file = fs file := by
  induction changes generalizing fs with
  | nil => rfl
  | cons c changes ih =>
    rw [applyAll, List.foldl_cons, ← applyAll, ih (fun c hc => h c (List.mem_cons_of_mem _ hc)),
      apply_spares (h c List.mem_cons_self)]

theorem rewrite_spares {file other : Bytes} (h : file ≠ other) (text : Bytes) :
    ∀ c ∈ rewrite file text, c.Spares other := by
  intro c hc
  rcases List.mem_cons.1 hc with rfl | hc
  · exact h
  · obtain ⟨byte, -, rfl⟩ := List.mem_map.1 hc
    exact h

theorem applyAll_appends (file : Bytes) (text before : Bytes) (fs : FileSystem)
    (h : fs file = some before) :
    applyAll (text.map (.append file)) fs file = some (before ++ text) := by
  induction text generalizing before fs with
  | nil => rw [List.append_nil]; exact h
  | cons byte text ih =>
    rw [List.map_cons, applyAll, List.foldl_cons, ← applyAll, ih (before ++ [byte]),
      List.append_assoc, List.singleton_append]
    rw [apply, Function.update_self, h, Option.map_some]

/-- A file that is rewritten has the bytes it gets, and the others are as they were. -/
theorem applyAll_rewrite (file text : Bytes) (fs : FileSystem) :
    applyAll (rewrite file text) fs = Function.update fs file (some text) := by
  funext other
  by_cases hother : file = other
  · subst hother
    rw [Function.update_self]
    exact applyAll_appends file text [] _ (Function.update_self _ _ _)
  · rw [applyAll_spares (rewrite_spares hother text), Function.update_of_ne (Ne.symm hother)]

theorem length_rewrite (file text : Bytes) : (rewrite file text).length = text.length + 1 := by
  rw [rewrite, List.length_cons, List.length_map]

theorem temporary_ne (path : Bytes) : path ++ ascii ".tmp" ≠ path := by
  intro h
  have hlength := congrArg List.length h
  simp [ascii] at hlength

theorem take_spares {changes : List FileChange} {file : Bytes} (h : ∀ c ∈ changes, c.Spares file)
    (k : ℕ) : ∀ c ∈ changes.take k, c.Spares file :=
  fun c hc => h c (List.mem_of_mem_take hc)

/-- What a write does to the file: nothing where it throws before it copies; or it is
renamed over it, or copied, or the copy is cut. -/
theorem replaceFile_cases (w : Outcome) (path text : Bytes) :
    (∃ changes e, replaceFile w path text = (changes, .error e) ∧ ∀ c ∈ changes, c.Spares path) ∨
    replaceFile w path text = (rewrite (path ++ ascii ".tmp") text ++
      [.rename (path ++ ascii ".tmp") path], .ok ()) ∨
    (w.Copies path ∧ ∃ removal, (∀ c ∈ removal, c.Spares path) ∧
      ((w.copying = .copied ∧ replaceFile w path text =
        (rewrite (path ++ ascii ".tmp") text ++ (rewrite path text ++ removal), .ok ())) ∨
      ∃ length message e, w.copying = .cut length message ∧ replaceFile w path text =
        (rewrite (path ++ ascii ".tmp") text ++ (rewrite path (text.take length) ++ removal),
          .error e))) := by
  have htemporary := fun text => rewrite_spares (temporary_ne path) text
  have hremoval : ∀ c ∈ (if w.removed then [.remove (path ++ ascii ".tmp")] else []),
      FileChange.Spares path c := by
    intro c hc
    obtain rfl : c = .remove (path ++ ascii ".tmp") := by
      split_ifs at hc
      · exact List.mem_singleton.1 hc
      · cases hc
    exact temporary_ne path
  unfold replaceFile Outcome.Copies
  dsimp only
  generalize (if w.removed then [FileChange.remove (path ++ ascii ".tmp")] else []) = removal
    at hremoval ⊢
  cases hdirectories : (if 47 ∈ path then w.directories else none) with
  | some message => exact .inl ⟨_, _, rfl, by simp⟩
  | none =>
    have hmade : 47 ∈ path → w.directories = none := fun h => by rwa [if_pos h] at hdirectories
    cases w.opened with
    | false => exact .inl ⟨_, _, rfl, by simp⟩
    | true =>
      cases w.written with
      | some length => exact .inl ⟨_, _, rfl, htemporary _⟩
      | none =>
        cases w.renamed with
        | true => exact .inr (.inl rfl)
        | false =>
          cases w.copying with
          | copied =>
            refine .inr (.inr ⟨⟨hmade, rfl, rfl, rfl⟩, removal, hremoval, .inl ⟨rfl, ?_⟩⟩)
            simp
          | refused message =>
            refine .inl ⟨_, _, rfl, fun c hc => ?_⟩
            exact (List.mem_append.1 hc).elim (htemporary _ c) (hremoval c)
          | cut length message =>
            refine .inr (.inr ⟨⟨hmade, rfl, rfl, rfl⟩, removal, hremoval, .inr ⟨length, message,
              .runtimeError ("failed to replace persistence file: " ++ message), rfl, ?_⟩⟩)
            simp

/-- A file that is written beside and renamed is the one of the plain model. -/
theorem applyAll_renamed (lib : Library) (fs : FileSystem) (path : Bytes) (t : Table) :
    applyAll (rewrite (path ++ ascii ".tmp") (lib.print t) ++
        [.rename (path ++ ascii ".tmp") path]) fs =
      writeProperties lib fs path t := by
  rw [applyAll_append, applyAll_rewrite]
  rfl

end Changes

/-! ### Saves that may fail -/

/-- The document that the call writes. -/
def Save.document (lib : Library) (s : Persistence.State) (w : Outcome) (fs : FileSystem) :
    Save → Except Exception Table
  | .property key value => do
    return apply (← w.readProperties lib fs s.path) (.property key value)
  | .thingName id name => do
    validateThingId id
    return apply (← w.readProperties lib fs s.path) (.thingName id name)

/-- The changes that the call makes, and what it returns. -/
def Save.attempt (lib : Library) (s : Persistence.State) (w : Outcome) (fs : FileSystem)
    (c : Save) : List FileChange × Except Exception Unit :=
  match c.document lib s w fs with
  | .error e => ([], .error e)
  | .ok properties => replaceFile w s.path (lib.print properties)

/-- A call, how its system calls turn out, and the number of changes behind which
the process is killed. -/
structure Attempt where
  save : Save
  outcome : Outcome := {}
  killed : Option ℕ := none

/-- What a caller hears; nothing if the process is killed. -/
abbrev Reply := Option (Except Exception Unit)

namespace Attempt

def run (lib : Library) (s : Persistence.State) (fs : FileSystem) (a : Attempt) :
    FileSystem × Reply :=
  let (changes, result) := a.save.attempt lib s a.outcome fs
  match a.killed with
  | none => (FileChange.applyAll changes fs, some result)
  | some count => (FileChange.applyAll (changes.take count) fs, none)

/-- The calls one after the other, in as many processes as it takes. -/
def runAll (lib : Library) :
    FileSystem → List (Persistence.State × Attempt) → FileSystem × List (Save × Reply)
  | fs, [] => (fs, [])
  | fs, (s, a) :: attempts =>
    let (fs, reply) := a.run lib s fs
    let (fs, replies) := runAll lib fs attempts
    (fs, (a.save, reply) :: replies)

/-- Where the call comes to copy the text to the file, the copy is refused, or the process
is killed before it begins, or all of the text is copied. -/
def Whole (a : Attempt) (path text : Bytes) : Prop :=
  a.outcome.Copies path →
    (∃ message, a.outcome.copying = .refused message) ∨
    (∃ count, a.killed = some count ∧ count ≤ text.length + 1) ∨
    a.outcome.copying = .copied ∧ ∀ count, a.killed = some count → 2 * (text.length + 1) ≤ count

/-- No call is cut short while it copies the document it saves. -/
def Uncut (lib : Library) : FileSystem → List (Persistence.State × Attempt) → Prop
  | _, [] => True
  | fs, (s, a) :: attempts =>
    (∀ t, a.save.document lib s a.outcome fs = .ok t → a.Whole s.path (lib.print t)) ∧
      Uncut lib (a.run lib s fs).1 attempts

end Attempt

/-- The saves that callers may count on: every one that returned, none that threw,
and of those that were killed some. -/
inductive Explains : List (Save × Reply) → List Save → Prop
  | nil : Explains [] []
  | returned {replies kept} (c : Save) (rest : Explains replies kept) :
      Explains ((c, some (.ok ())) :: replies) (c :: kept)
  | thrown {replies kept} (c : Save) (e : Exception) (rest : Explains replies kept) :
      Explains ((c, some (.error e)) :: replies) kept
  | lost {replies kept} (c : Save) (rest : Explains replies kept) :
      Explains ((c, none) :: replies) kept
  | kept {replies kept} (c : Save) (rest : Explains replies kept) :
      Explains ((c, none) :: replies) (c :: kept)

/-! ### Whole runs -/

section Runs

variable {lib : Library} {path : Bytes} {fs fs' : FileSystem} {t : Table}

theorem readProperties_congr (h : fs' path = fs path) :
    readProperties lib fs' path = readProperties lib fs path := by
  rw [readProperties, h, ← readProperties]

theorem readProperties_text {text : Bytes} (h : fs path = some text)
    (hparse : lib.parse text = .ok t) : readProperties lib fs path = .ok t := by
  simp only [readProperties, h, hparse]

theorem Outcome.readProperties_plain (fs : FileSystem) (path : Bytes) :
    ({} : Outcome).readProperties lib fs path = Common.readProperties lib fs path := by
  rw [readProperties]
  split
  · next h => cases h
  · split
    · next h => cases h
    · rfl

/-- A read fails, or it is the one of the plain model. -/
theorem Outcome.readProperties_cases (w : Outcome) (fs : FileSystem) (path : Bytes) :
    (∃ e, w.readProperties lib fs path = .error e) ∨
      w.readProperties lib fs path = Common.readProperties lib fs path := by
  rw [readProperties]
  split
  · exact .inl ⟨_, rfl⟩
  · split
    · exact .inl ⟨_, rfl⟩
    · exact .inr rfl

/-- Where nothing fails, a call is the one of the plain model. -/
theorem Save.attempt_run (s : Persistence.State) (fs : FileSystem) (c : Save) :
    (c.attempt lib s {} fs).2.map (fun _ => FileChange.applyAll (c.attempt lib s {} fs).1 fs) =
      c.run lib s fs := by
  have hplain : ∀ properties,
      FileChange.applyAll (replaceFile {} s.path (lib.print properties)).1 fs =
        writeProperties lib fs s.path properties := by
    intro properties
    rw [← applyAll_renamed]
    simp [replaceFile]
  have hreturns : ∀ text, (replaceFile {} s.path text).2 = .ok () := by simp [replaceFile]
  cases c with
  | property key value =>
    simp only [attempt, document, Outcome.readProperties_plain, run, Persistence.State.save,
      Persistence.State.write]
    cases readProperties lib fs s.path with
    | error e => rfl
    | ok properties =>
      simp only [bind, Except.bind, pure, Except.pure, hreturns, hplain, Except.map]
      rfl
  | thingName id name =>
    simp only [attempt, document, Outcome.readProperties_plain, run,
      Persistence.State.saveThingName]
    cases validateThingId id with
    | error e => rfl
    | ok _ =>
      cases readProperties lib fs s.path with
      | error e => rfl
      | ok properties =>
        simp only [bind, Except.bind, pure, Except.pure, hreturns, hplain, Except.map]
        rfl

theorem Save.document_cases {s : Persistence.State} (h : readProperties lib fs s.path = .ok t)
    (w : Outcome) (c : Save) : (∃ e, c.document lib s w fs = .error e) ∨
      c.document lib s w fs = .ok (c.apply t) := by
  have hread : (∃ e, w.readProperties lib fs s.path = .error e) ∨
      w.readProperties lib fs s.path = .ok t := h ▸ w.readProperties_cases fs s.path
  cases c with
  | property key value =>
    simp only [document]
    obtain ⟨e, hread⟩ | hread := hread <;> rw [hread]
    · exact .inl ⟨e, rfl⟩
    · exact .inr rfl
  | thingName id name =>
    simp only [document]
    cases validateThingId id with
    | error e => exact .inl ⟨e, rfl⟩
    | ok _ =>
      obtain ⟨e, hread⟩ | hread := hread <;> rw [hread]
      · exact .inl ⟨e, rfl⟩
      · exact .inr rfl

namespace Attempt

theorem run_none (s : Persistence.State) (fs : FileSystem) {a : Attempt} (h : a.killed = none) :
    a.run lib s fs = (FileChange.applyAll (a.save.attempt lib s a.outcome fs).1 fs,
      some (a.save.attempt lib s a.outcome fs).2) := by
  simp only [run, h]

theorem run_some (s : Persistence.State) (fs : FileSystem) {a : Attempt} {count : ℕ}
    (h : a.killed = some count) : a.run lib s fs =
      (FileChange.applyAll ((a.save.attempt lib s a.outcome fs).1.take count) fs, none) := by
  simp only [run, h]

/-- The call leaves the document as it was, or makes of it what it saves; the first where
it throws, the second where it returns. -/
def Settles (lib : Library) (s : Persistence.State) (fs : FileSystem) (t : Table) (a : Attempt) :
    Prop :=
  (readProperties lib (a.run lib s fs).1 s.path = .ok t ∧ (a.run lib s fs).2 ≠ some (.ok ())) ∨
  (readProperties lib (a.run lib s fs).1 s.path = .ok (a.save.apply t) ∧
    ∀ e, (a.run lib s fs).2 ≠ some (.error e))

section Run

variable {s : Persistence.State} {a : Attempt} {changes removal : List FileChange}
  {result : Except Exception Unit} {text : Bytes}

/-- A call that is killed before it changes the file itself. -/
theorem settles_killed {count : ℕ} (h : readProperties lib fs s.path = .ok t)
    (hattempt : a.save.attempt lib s a.outcome fs = (changes, result))
    (hkilled : a.killed = some count) (hspares : ∀ c ∈ changes.take count, c.Spares s.path) :
    a.Settles lib s fs t := by
  left
  rw [run_some s fs hkilled, hattempt]
  exact ⟨(readProperties_congr (applyAll_spares hspares fs)).trans h, by simp⟩

/-- A call that makes no change to the file itself, and throws. -/
theorem settles_spared {e : Exception} (h : readProperties lib fs s.path = .ok t)
    (hattempt : a.save.attempt lib s a.outcome fs = (changes, .error e))
    (hspares : ∀ c ∈ changes, c.Spares s.path) : a.Settles lib s fs t := by
  cases hkilled : a.killed with
  | none =>
    left
    rw [run_none s fs hkilled, hattempt]
    exact ⟨(readProperties_congr (applyAll_spares hspares fs)).trans h, by simp⟩
  | some count => exact settles_killed h hattempt hkilled (take_spares hspares count)

/-- A call that is killed while it writes the temporary file. -/
theorem settles_early {count : ℕ} (h : readProperties lib fs s.path = .ok t)
    (hattempt : a.save.attempt lib s a.outcome fs =
      (rewrite (s.path ++ ascii ".tmp") text ++ changes, result))
    (hkilled : a.killed = some count) (hcount : count ≤ text.length + 1) :
    a.Settles lib s fs t := by
  have hlength := length_rewrite (s.path ++ ascii ".tmp") text
  refine settles_killed h hattempt hkilled ?_
  rw [List.take_append_of_le_length (by omega)]
  exact take_spares (rewrite_spares (temporary_ne s.path) text) count

/-- A call that renames the temporary file, which is the last thing it does. -/
theorem settles_renamed (h : readProperties lib fs s.path = .ok t)
    (hattempt : a.save.attempt lib s a.outcome fs =
      (rewrite (s.path ++ ascii ".tmp") (lib.print (a.save.apply t)) ++
        [.rename (s.path ++ ascii ".tmp") s.path], .ok ()))
    (hround : lib.parse (lib.print (a.save.apply t)) = .ok (a.save.apply t)) :
    a.Settles lib s fs t := by
  have hwritten :
      readProperties lib (writeProperties lib fs s.path (a.save.apply t)) s.path = _ :=
    readProperties_write hround
  rw [← applyAll_renamed] at hwritten
  cases hkilled : a.killed with
  | none =>
    right
    rw [run_none s fs hkilled, hattempt]
    exact ⟨hwritten, by simp⟩
  | some count =>
    have hlength :=
      length_rewrite (s.path ++ ascii ".tmp") (lib.print (a.save.apply t))
    rcases Nat.lt_or_ge ((lib.print (a.save.apply t)).length + 1) count with hcount | hcount
    · right
      rw [run_some s fs hkilled, hattempt,
        List.take_of_length_le (by rw [List.length_append, List.length_singleton]; omega)]
      exact ⟨hwritten, by simp⟩
    · exact settles_early h hattempt hkilled hcount

/-- A file that is copied has the text, whatever becomes of the temporary one. -/
theorem readProperties_copied {path : Bytes} (hremoval : ∀ c ∈ removal, c.Spares path)
    (hparse : lib.parse (lib.print t) = .ok t) :
    readProperties lib (FileChange.applyAll (rewrite (path ++ ascii ".tmp") (lib.print t) ++
      (rewrite path (lib.print t) ++ removal)) fs) path = .ok t := by
  refine readProperties_text ?_ hparse
  rw [applyAll_append, applyAll_append, applyAll_spares hremoval, applyAll_rewrite,
    Function.update_self]

/-- A call that copies all of the text, also where it is killed behind that. -/
theorem settles_copied (hattempt : a.save.attempt lib s a.outcome fs =
      (rewrite (s.path ++ ascii ".tmp") (lib.print (a.save.apply t)) ++
        (rewrite s.path (lib.print (a.save.apply t)) ++ removal), .ok ()))
    (hremoval : ∀ c ∈ removal, c.Spares s.path)
    (hbehind : ∀ count, a.killed = some count →
      2 * ((lib.print (a.save.apply t)).length + 1) ≤ count)
    (hround : lib.parse (lib.print (a.save.apply t)) = .ok (a.save.apply t)) :
    a.Settles lib s fs t := by
  right
  cases hkilled : a.killed with
  | none =>
    rw [run_none s fs hkilled, hattempt]
    exact ⟨readProperties_copied hremoval hround, by simp⟩
  | some count =>
    have hcount := hbehind count hkilled
    have hlength := length_rewrite (s.path ++ ascii ".tmp") (lib.print (a.save.apply t))
    have hcopy := length_rewrite s.path (lib.print (a.save.apply t))
    rw [run_some s fs hkilled, hattempt, List.take_append, List.take_append,
      List.take_of_length_le (by omega), List.take_of_length_le (by omega)]
    exact ⟨readProperties_copied (take_spares hremoval _) hround, by simp⟩

/-- A call settles unless it is cut short while it copies. -/
theorem run_settles (h : readProperties lib fs s.path = .ok t)
    (hwhole : ∀ t, a.save.document lib s a.outcome fs = .ok t → a.Whole s.path (lib.print t))
    (hround : lib.parse (lib.print (a.save.apply t)) = .ok (a.save.apply t)) :
    a.Settles lib s fs t := by
  obtain ⟨e, hdocument⟩ | hdocument := Save.document_cases h a.outcome a.save
  · have hattempt : a.save.attempt lib s a.outcome fs = ([], .error e) := by
      simp only [Save.attempt, hdocument]
    exact settles_spared h hattempt (by simp)
  have hattempt : a.save.attempt lib s a.outcome fs =
      replaceFile a.outcome s.path (lib.print (a.save.apply t)) := by
    simp only [Save.attempt, hdocument]
  obtain ⟨changes, e, heq, hspares⟩ | heq | ⟨hcopies, removal, hremoval, hcopy⟩ :=
    replaceFile_cases a.outcome s.path (lib.print (a.save.apply t))
  · exact settles_spared h (hattempt.trans heq) hspares
  · exact settles_renamed h (hattempt.trans heq) hround
  obtain ⟨hcopied, heq⟩ | ⟨length, message, e, hcut, heq⟩ := hcopy
  · obtain ⟨message, hrefused⟩ | ⟨count, hkilled, hcount⟩ | ⟨-, hbehind⟩ :=
      hwhole _ hdocument hcopies
    · simp [hcopied] at hrefused
    · exact settles_early h (hattempt.trans heq) hkilled hcount
    · exact settles_copied (hattempt.trans heq) hremoval hbehind hround
  · obtain ⟨message', hrefused⟩ | ⟨count, hkilled, hcount⟩ | ⟨hcopied, -⟩ :=
      hwhole _ hdocument hcopies
    · simp [hcut] at hrefused
    · exact settles_early h (hattempt.trans heq) hkilled hcount
    · simp [hcut] at hcopied

end Run

/-- The document behind a run is what the saves that count make of the one before. -/
theorem runAll_explains (h : readProperties lib fs path = .ok t)
    {attempts : List (Persistence.State × Attempt)} (hpath : ∀ a ∈ attempts, a.1.path = path)
    (huncut : Uncut lib fs attempts)
    (hround : ∀ cs : List Save, cs.Sublist (attempts.map (·.2.save)) →
      lib.parse (lib.print (cs.foldl Save.apply t)) = .ok (cs.foldl Save.apply t)) :
    ∃ kept, Explains (runAll lib fs attempts).2 kept ∧
      readProperties lib (runAll lib fs attempts).1 path = .ok (kept.foldl Save.apply t) := by
  induction attempts generalizing fs t with
  | nil => exact ⟨[], .nil, h⟩
  | cons attempt attempts ih =>
    obtain ⟨s, a⟩ := attempt
    obtain rfl : s.path = path := hpath (s, a) List.mem_cons_self
    have hpath' : ∀ a ∈ attempts, a.1.path = s.path :=
      fun a ha => hpath a (List.mem_cons_of_mem _ ha)
    have hsaved := hround [a.save] (by simp)
    cases hrun : a.run lib s fs with
    | mk fs' reply =>
      have hall : runAll lib fs ((s, a) :: attempts) =
          ((runAll lib fs' attempts).1, (a.save, reply) :: (runAll lib fs' attempts).2) := by
        simp only [runAll, hrun]
      rw [hall]
      obtain ⟨hwhole, huncut⟩ := huncut
      have hcases := run_settles h hwhole hsaved
      rw [Settles, hrun] at hcases
      rw [hrun] at huncut
      obtain ⟨hdocument, hreply⟩ | ⟨hdocument, hreply⟩ := hcases
      · obtain ⟨kept, hkept, hread⟩ := ih hdocument hpath' huncut fun cs hcs =>
          hround cs (hcs.cons a.save)
        refine ⟨kept, ?_, hread⟩
        cases reply with
        | none => exact .lost a.save hkept
        | some result =>
          cases result with
          | error e => exact .thrown a.save e hkept
          | ok _ => exact absurd rfl hreply
      · obtain ⟨kept, hkept, hread⟩ := ih hdocument hpath' huncut fun cs hcs =>
          hround (a.save :: cs) (hcs.cons_cons a.save)
        refine ⟨a.save :: kept, ?_, hread⟩
        cases reply with
        | none => exact .kept a.save hkept
        | some result =>
          cases result with
          | error e => exact absurd rfl (hreply e)
          | ok _ => exact .returned a.save hkept

/-- Whatever system calls fail and wherever the process is killed, as long as no call is
cut short while it copies the document to the file: what is restored is what the saves that
returned and some of those that were killed left, in their order. -/
theorem saves_are_all_or_nothing (lib : Library) {path : Bytes} {fs : FileSystem} {t : Table}
    (h : readProperties lib fs path = .ok t)
    {attempts : List (Persistence.State × Attempt)} (hpath : ∀ a ∈ attempts, a.1.path = path)
    (huncut : Uncut lib fs attempts)
    (hround : ∀ cs : List Save, cs.Sublist (attempts.map (·.2.save)) →
      lib.parse (lib.print (cs.foldl Save.apply t)) = .ok (cs.foldl Save.apply t))
    {r : Persistence.State} (hr : r.path = path) :
    ∃ kept, Explains (runAll lib fs attempts).2 kept ∧
      (∀ key, r.restore lib (runAll lib fs attempts).1 key = (Save.lastValue key kept).elim
        (r.restore lib fs key) fun v => .ok (some v)) ∧
      ∀ id, id ≠ [] → r.restoreThingName lib (runAll lib fs attempts).1 id =
        (Save.lastName id kept).elim (r.restoreThingName lib fs id) fun name => .ok (some name) := by
  subst hr
  obtain ⟨kept, hkept, hread⟩ := runAll_explains h hpath huncut hround
  refine ⟨kept, hkept, fun key => ?_, fun id hid => ?_⟩
  · rw [Persistence.State.restore_eq hread, Persistence.State.restore_eq h, Save.restore_foldl]
  · rw [Persistence.State.restoreThingName_eq hread hid,
      Persistence.State.restoreThingName_eq h hid, Save.restoreThingName_foldl]

/-- An interval whose write fails; one that is copied, as the file cannot be renamed; one
for which the file cannot be read; and a name with which the process is killed behind the
copy, before the temporary file is removed. -/
def troubled : List Attempt :=
  [{ save := .property .discoveryInterval 30, outcome := { written := some 4 } },
    { save := .property .discoveryInterval 60, outcome := { renamed := false } },
    { save := .property .discoveryInterval 90
      outcome := { reading := some "File could not be opened for reading" } },
    { save := .thingName (ascii "thing 1") (ascii "Garage"), outcome := { renamed := false }
      killed := some 120 }]

/-- A library for the documents that some of those make. -/
def troubledLibrary : Library where
  print := Save.printDocument
  parse text := match ((troubled.map (·.save)).sublists.map (·.foldl Save.apply [])).find?
      (Save.printDocument · = text) with
    | some d => .ok d
    | none => .error "not a document of the run"

/-- Only the interval that was copied is there afterwards. -/
theorem saves_are_all_or_nothing_troubled : ∃ fs,
    (runAll troubledLibrary (fun _ => none) (troubled.map (Save.configFile, ·))).1 = fs ∧
    Save.configFile.restore troubledLibrary fs .discoveryInterval = .ok (some 60) := by
  have hempty : readProperties troubledLibrary (fun _ => none) Save.configFile.path = .ok [] := rfl
  have hround : ∀ cs : List Save,
      cs.Sublist ((troubled.map (Save.configFile, ·)).map (·.2.save)) →
      troubledLibrary.parse (troubledLibrary.print (cs.foldl Save.apply [])) =
        .ok (cs.foldl Save.apply []) := by
    intro cs hcs
    have hall : ∀ cs ∈ (troubled.map (·.save)).sublists,
        troubledLibrary.parse (troubledLibrary.print (cs.foldl Save.apply [])) =
          .ok (cs.foldl Save.apply []) := by
      simp only [troubled, List.map_cons, List.map_nil, List.sublists, List.foldr_cons,
        List.foldr_nil, List.flatMap_cons, List.flatMap_nil, List.cons_append, List.nil_append,
        List.append_nil, List.forall_mem_cons]
      exact ⟨rfl, rfl, rfl, rfl, rfl, rfl, rfl, rfl, rfl, rfl, rfl, rfl, rfl, rfl, rfl, rfl, by simp⟩
    exact hall cs (List.mem_sublists.2 hcs)
  have huncut : Uncut troubledLibrary (fun _ => none) (troubled.map (Save.configFile, ·)) := by
    refine ⟨fun t _ hcopies => (nomatch hcopies.2.2.1), fun t _ _ => .inr (.inr ⟨rfl, nofun⟩),
      fun t _ hcopies => (nomatch hcopies.2.2.2), fun t ht _ => .inr (.inr ⟨rfl, ?_⟩), trivial⟩
    obtain rfl := Except.ok.inj ht
    rintro _ ⟨⟩
    decide +kernel
  obtain ⟨kept, hkept, hvalue, hname⟩ := saves_are_all_or_nothing troubledLibrary hempty
    (by simp) huncut hround (r := Save.configFile) rfl
  refine ⟨_, rfl, ?_⟩
  have hreplies : (runAll troubledLibrary (fun _ => none) (troubled.map (Save.configFile, ·))).2 =
      [(.property .discoveryInterval 30, some (.error (.runtimeError
          "failed while writing persistence file: /var/lib/iotic/iotic.conf.tmp"))),
        (.property .discoveryInterval 60, some (.ok ())),
        (.property .discoveryInterval 90, some (.error (.runtimeError
          "invalid TOML persistence file: File could not be opened for reading"))),
        (.thingName (ascii "thing 1") (ascii "Garage"), none)] := rfl
  rw [hreplies] at hkept
  rw [hvalue]
  obtain - | - | ⟨-, -, hkept⟩ := hkept
  obtain - | ⟨-, hkept⟩ := hkept
  obtain - | - | ⟨-, -, hkept⟩ := hkept
  obtain - | - | - | ⟨-, hkept⟩ | ⟨-, hkept⟩ := hkept
  all_goals
    obtain - | - := hkept
    rfl

end Attempt

end Runs

end Neubau.Common
