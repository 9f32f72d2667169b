import Neubau.Common.Persistence

/-! The configuration file as a map. What an operation does to the file is what
it does to the document in it, so a sequence of saves is a sequence of updates
of one document; a later restore sees the last value saved under its key or id,
and everything else stays as it was. -/

namespace Neubau.Common

open Toml

namespace Toml.Table

/-- The tables under `things`, by id; none if there is no such table. -/
def things (t : Table) : Table := (t.getTable (ascii "things")).getD []

/-- The entries of the table of one thing. -/
def thing (t : Table) (id : Bytes) : Table := (t.things.getTable id).getD []

/-- What `restore` reads in the document. -/
def restore (t : Table) (key : PropertyKey) : Except Exception (Option Int64) :=
  match t.get (propertyName key) with
  | none => .ok none
  | some node => some <$> (readValue node key >>= decode)

/-- What `restoreThingName` reads in the document. -/
def restoreThingName (t : Table) (id : Bytes) : Except Exception (Option Bytes) :=
  match (t.thing id).get (ascii "name") with
  | none => .ok none
  | some (.string name) => .ok (some name)
  | some _ => .error (.invalidArgument "persisted thing name must be a string")

end Toml.Table

/-- The calls that change the file. -/
inductive Save
  | property (key : PropertyKey) (value : Int64)
  | thingName (id name : Bytes)

namespace Save

/-- The call names a thing by an id that is not empty. -/
def Named : Save → Prop
  | .property _ _ => True
  | .thingName id _ => id ≠ []

/-- What the call makes of the document. -/
def apply (t : Table) : Save → Table
  | .property key value => t.insertOrAssign (propertyName key) (.integer value)
  | .thingName id name => t.insertOrAssign (ascii "things") (.table
      (t.things.insertOrAssign id (.table ((t.thing id).insertOrAssign (ascii "name") (.string name)))))

/-- The call on the file. -/
def run (lib : Library) (s : Persistence.State) (fs : FileSystem) : Save → Except Exception FileSystem
  | .property key value => s.save lib fs key value
  | .thingName id name => s.saveThingName lib fs id name

/-- The documents the calls write, one after the other. -/
def documents : Table → List Save → List Table
  | _, [] => []
  | t, c :: cs => c.apply t :: documents (c.apply t) cs

def savedValue (key : PropertyKey) : Save → Option Int64
  | .property k value => if k = key then some value else none
  | .thingName _ _ => none

def savedName (id : Bytes) : Save → Option Bytes
  | .property _ _ => none
  | .thingName i name => if i = id then some name else none

/-- The value the calls saved last for a property. -/
def lastValue (key : PropertyKey) (cs : List Save) : Option Int64 :=
  cs.reverse.findSome? (savedValue key)

/-- The name the calls saved last for a thing. -/
def lastName (id : Bytes) (cs : List Save) : Option Bytes :=
  cs.reverse.findSome? (savedName id)

/-- What the call leaves as it is: every entry of the document but the one it is
about, the tables of the other things, and the other entries of its own thing. -/
def Leaves (t t' : Table) : Save → Prop
  | .property key _ => ∀ k, k ≠ propertyName key → t'.get k = t.get k
  | .thingName id _ => (∀ k, k ≠ ascii "things" → t'.get k = t.get k) ∧
      (∀ i, i ≠ id → t'.things.get i = t.things.get i) ∧
      ∀ k, k ≠ ascii "name" → (t'.thing id).get k = (t.thing id).get k

end Save

section File

variable {lib : Library} {path : Bytes} {fs : FileSystem} {t : Table}

theorem propertyName_injective {k k' : PropertyKey} (h : propertyName k = propertyName k') :
    k = k' := by
  cases k <;> cases k' <;> first | rfl | exact absurd h (by decide)

theorem propertyName_ne_things (k : PropertyKey) : propertyName k ≠ ascii "things" := by
  cases k <;> decide

/-- The file holds the document just written, if the library reads it back. -/
theorem readProperties_write (h : lib.parse (lib.print t) = .ok t) :
    readProperties lib (writeProperties lib fs path t) path = .ok t := by
  have hne : path ≠ path ++ ascii ".tmp" := by
    intro he
    have := congrArg List.length he
    simp [ascii] at this
  simp [readProperties, writeProperties, Function.update_of_ne hne, h]

namespace Persistence.State

variable {s : Persistence.State}

theorem restore_eq (h : readProperties lib fs s.path = .ok t) (key : PropertyKey) :
    s.restore lib fs key = t.restore key := by
  simp only [restore, read, h, Table.restore, bind, Except.bind, pure, Except.pure]
  cases t.get (propertyName key) with
  | none => rfl
  | some node => cases node <;> rfl

theorem restoreThingName_eq (h : readProperties lib fs s.path = .ok t) {id : Bytes}
    (hid : id ≠ []) : s.restoreThingName lib fs id = t.restoreThingName id := by
  simp only [restoreThingName, validateThingId, if_neg hid, h, Table.restoreThingName,
    Table.thing, Table.things, bind, Except.bind, pure, Except.pure]
  cases t.getTable (ascii "things") with
  | none => rfl
  | some things =>
    simp only [Option.getD_some]
    cases things.getTable id with
    | none => rfl
    | some thing => rfl

end Persistence.State

namespace Save

theorem run_eq {s : Persistence.State} (h : readProperties lib fs s.path = .ok t) {c : Save}
    (hc : c.Named) : c.run lib s fs = .ok (writeProperties lib fs s.path (c.apply t)) := by
  cases c with
  | property key value =>
    simp only [run, Persistence.State.save, Persistence.State.write, h]
    rfl
  | thingName id name =>
    simp only [run, Persistence.State.saveThingName, validateThingId, if_neg hc, h]
    rfl

section Document

variable (t)

theorem things_property (key : PropertyKey) (value : Int64) :
    (apply t (.property key value)).things = t.things := by
  simp only [apply, Table.things, Table.getTable,
    get_insertOrAssign_ne _ _ (propertyName_ne_things key)]

theorem things_thingName (id name : Bytes) : (apply t (.thingName id name)).things =
    t.things.insertOrAssign id (.table ((t.thing id).insertOrAssign (ascii "name") (.string name))) := by
  simp [apply, Table.things, Table.getTable]

theorem thing_thingName (id name : Bytes) : (apply t (.thingName id name)).thing id =
    (t.thing id).insertOrAssign (ascii "name") (.string name) := by
  simp [Table.thing, things_thingName, Table.getTable]

theorem thing_thingName_ne {id i : Bytes} (name : Bytes) (h : id ≠ i) :
    (apply t (.thingName id name)).thing i = t.thing i := by
  simp only [Table.thing, things_thingName, Table.getTable, get_insertOrAssign_ne _ _ h]

theorem restore_apply (c : Save) (key : PropertyKey) :
    (c.apply t).restore key = (c.savedValue key).elim (t.restore key) fun v => .ok (some v) := by
  cases c with
  | property k value =>
    by_cases hk : k = key
    · subst hk
      simp only [Table.restore, apply, get_insertOrAssign_self, savedValue, if_pos]
      rfl
    · have hne : propertyName k ≠ propertyName key := fun h => hk (propertyName_injective h)
      simp only [Table.restore, apply, get_insertOrAssign_ne _ _ hne, savedValue, if_neg hk,
        Option.elim_none]
  | thingName id name =>
    have hne : ascii "things" ≠ propertyName key := (propertyName_ne_things key).symm
    simp only [Table.restore, apply, get_insertOrAssign_ne _ _ hne, savedValue, Option.elim_none]

theorem restoreThingName_apply (c : Save) (id : Bytes) : (c.apply t).restoreThingName id =
    (c.savedName id).elim (t.restoreThingName id) fun name => .ok (some name) := by
  cases c with
  | property key value =>
    simp only [Table.restoreThingName, Table.thing, things_property, savedName, Option.elim_none]
  | thingName i name =>
    by_cases hi : i = id
    · subst hi
      simp only [Table.restoreThingName, thing_thingName, get_insertOrAssign_self, savedName, if_pos,
        Option.elim_some]
    · simp only [Table.restoreThingName, thing_thingName_ne t name hi, savedName, if_neg hi,
        Option.elim_none]

theorem apply_leaves (c : Save) : c.Leaves t (c.apply t) := by
  cases c with
  | property key value => exact fun k hk => get_insertOrAssign_ne _ _ hk.symm
  | thingName id name =>
    refine ⟨fun k hk => get_insertOrAssign_ne _ _ hk.symm, fun i hi => ?_, fun k hk => ?_⟩
    · rw [things_thingName, get_insertOrAssign_ne _ _ hi.symm]
    · rw [thing_thingName, get_insertOrAssign_ne _ _ hk.symm]

/-- A value is what the last save of its key made it. -/
theorem restore_foldl (cs : List Save) (key : PropertyKey) : (cs.foldl apply t).restore key =
    (lastValue key cs).elim (t.restore key) fun v => .ok (some v) := by
  induction cs using List.reverseRecOn with
  | nil => rfl
  | append_singleton cs c ih =>
    simp only [List.foldl_append, List.foldl_cons, List.foldl_nil, restore_apply, ih, lastValue,
      List.reverse_append, List.reverse_singleton, List.singleton_append, List.findSome?_cons]
    cases c.savedValue key <;> rfl

/-- A name is what the last save of its id made it. -/
theorem restoreThingName_foldl (cs : List Save) (id : Bytes) :
    (cs.foldl apply t).restoreThingName id =
      (lastName id cs).elim (t.restoreThingName id) fun name => .ok (some name) := by
  induction cs using List.reverseRecOn with
  | nil => rfl
  | append_singleton cs c ih =>
    simp only [List.foldl_append, List.foldl_cons, List.foldl_nil, restoreThingName_apply, ih,
      lastName, List.reverse_append, List.reverse_singleton, List.singleton_append,
      List.findSome?_cons]
    cases c.savedName id <;> rfl

end Document

/-- The calls of several objects on the same file, one after the other. -/
def runAll (lib : Library) (fs : FileSystem) (calls : List (Persistence.State × Save)) :
    Except Exception FileSystem :=
  calls.foldlM (fun fs c => c.2.run lib c.1 fs) fs

/-- The calls succeed, and the file then holds the document they make. -/
theorem runAll_eq (h : readProperties lib fs path = .ok t)
    {calls : List (Persistence.State × Save)} (hpath : ∀ c ∈ calls, c.1.path = path)
    (hnamed : ∀ c ∈ calls, c.2.Named)
    (hround : ∀ d ∈ documents t (calls.map (·.2)), lib.parse (lib.print d) = .ok d) :
    ∃ fs', runAll lib fs calls = .ok fs' ∧
      readProperties lib fs' path = .ok ((calls.map (·.2)).foldl apply t) := by
  induction calls generalizing fs t with
  | nil => exact ⟨fs, rfl, h⟩
  | cons c calls ih =>
    obtain ⟨s, save⟩ := c
    obtain rfl : s.path = path := hpath (s, save) (by simp)
    have hd : lib.parse (lib.print (save.apply t)) = .ok (save.apply t) :=
      hround _ (by simp [documents])
    obtain ⟨fs', hrun, hdoc⟩ := ih (readProperties_write hd) (fun c hc => hpath c (by simp [hc]))
      (fun c hc => hnamed c (by simp [hc])) fun d hd => hround d (by simp [documents, hd])
    refine ⟨fs', ?_, hdoc⟩
    rw [runAll, List.foldlM_cons, run_eq h (hnamed (s, save) (by simp))]
    exact hrun

theorem documents_append (cs ds : List Save) :
    documents t (cs ++ ds) = documents t cs ++ documents (cs.foldl apply t) ds := by
  induction cs generalizing t with
  | nil => rfl
  | cons c cs ih => simp [documents, ih]

/-- After any calls on a file, a value or a name restored is the one saved last,
or the one the file held before; and each call leaves everything else alone. -/
theorem configuration_file_is_a_map (lib : Library) {path : Bytes} {fs : FileSystem} {t : Table}
    (h : readProperties lib fs path = .ok t) {calls : List (Persistence.State × Save)}
    (hpath : ∀ c ∈ calls, c.1.path = path) (hnamed : ∀ c ∈ calls, c.2.Named)
    (hround : ∀ d ∈ documents t (calls.map (·.2)), lib.parse (lib.print d) = .ok d)
    {r : Persistence.State} (hr : r.path = path) :
    (∃ fs', runAll lib fs calls = .ok fs' ∧
      (∀ key, r.restore lib fs' key = (lastValue key (calls.map (·.2))).elim
        (r.restore lib fs key) fun v => .ok (some v)) ∧
      ∀ id, id ≠ [] → r.restoreThingName lib fs' id = (lastName id (calls.map (·.2))).elim
        (r.restoreThingName lib fs id) fun name => .ok (some name)) ∧
    ∀ before c after, calls = before ++ c :: after → ∃ f f' d d',
      runAll lib fs before = .ok f ∧ c.2.run lib c.1 f = .ok f' ∧
      readProperties lib f path = .ok d ∧ readProperties lib f' path = .ok d' ∧ c.2.Leaves d d' := by
  subst hr
  constructor
  · obtain ⟨fs', hrun, hdoc⟩ := runAll_eq h hpath hnamed hround
    refine ⟨fs', hrun, fun key => ?_, fun id hid => ?_⟩
    · rw [Persistence.State.restore_eq hdoc, Persistence.State.restore_eq h, restore_foldl]
    · rw [Persistence.State.restoreThingName_eq hdoc hid, Persistence.State.restoreThingName_eq h hid,
        restoreThingName_foldl]
  · rintro before c after rfl
    have hround' : ∀ d ∈ documents t (before.map (·.2)), lib.parse (lib.print d) = .ok d :=
      fun d hd => hround d (by simp [documents_append, hd])
    obtain ⟨f, hrun, hdoc⟩ := runAll_eq h (fun c hc => hpath c (by simp [hc]))
      (fun c hc => hnamed c (by simp [hc])) hround'
    have hc : c.1.path = r.path := hpath c (by simp)
    refine ⟨f, writeProperties lib f r.path (c.2.apply ((before.map (·.2)).foldl apply t)), _, _,
      hrun, ?_, hdoc, readProperties_write (hround _ (by simp [documents_append, documents])),
      apply_leaves _ c.2⟩
    rw [run_eq (hc ▸ hdoc) (hnamed c (by simp)), hc]

/-- A thing that is added under a repository on the file gets the name saved last
for its id. -/
theorem add_on_file (h : readProperties lib fs path = .ok t)
    {calls : List (Persistence.State × Save)} (hpath : ∀ c ∈ calls, c.1.path = path)
    (hnamed : ∀ c ∈ calls, c.2.Named)
    (hround : ∀ d ∈ documents t (calls.map (·.2)), lib.parse (lib.print d) = .ok d)
    {s : Persistence.State} (hs : s.path = path) {r : ThingRepository} {thing : Thing}
    (hnew : r.find thing.id = none) {name : Bytes}
    (hname : lastName thing.id (calls.map (·.2)) = some name) :
    ∃ fs', runAll lib fs calls = .ok fs' ∧ r.add (s.lookup lib fs') (some thing) =
      .ok { r with things := r.things ++ [{ thing with name }] }.emitThings := by
  subst hs
  obtain ⟨fs', hrun, hdoc⟩ := runAll_eq h hpath hnamed hround
  refine ⟨fs', hrun, ?_⟩
  have hrestore : (s.lookup lib fs').restoreThingName thing.id = .ok (some name) := by
    show s.restoreThingName lib fs' thing.id = _
    rw [Persistence.State.restoreThingName_eq hdoc thing.id_ne, restoreThingName_foldl, hname]
    rfl
  simp [ThingRepository.add, hnew, hrestore, bind, Except.bind, pure, Except.pure]

/-- The lines of the integers and the strings of a table. -/
def printValues (t : Table) : Bytes :=
  t.flatMap fun
    | (key, .integer value) => key ++ ascii " = " ++ ascii (toString value) ++ ascii "\n"
    | (key, .string value) => key ++ ascii " = '" ++ value ++ ascii "'\n"
    | _ => []

/-- A printer for documents of integers, and of things with strings. -/
def printDocument (t : Table) : Bytes :=
  printValues t ++ t.things.flatMap fun e =>
    ascii "\n[things.'" ++ e.1 ++ ascii "']\n" ++
      printValues ((Table.getTable [e] e.1).getD [])

/-- The calls of a first start: an interval is set and a thing is named. -/
def firstCalls : List Save :=
  [.property .discoveryInterval 30, .thingName (ascii "thing 1") (ascii "Garage")]

/-- A library for the documents of a first start. -/
def firstLibrary : Library where
  print := printDocument
  parse text := match (documents [] firstCalls).find? (printDocument · = text) with
    | some d => .ok d
    | none => .error "not a document of a first start"

def configFile : Persistence.State where
  path := ascii "/var/lib/iotic/iotic.conf"
  path_ne := by decide

/-- The interval and the name of a first start, restored from a file that did
not exist. -/
theorem configuration_file_is_a_map_first : ∃ fs,
    runAll firstLibrary (fun _ => none) (firstCalls.map (configFile, ·)) = .ok fs ∧
    configFile.restore firstLibrary fs .discoveryInterval = .ok (some 30) ∧
    configFile.restore firstLibrary fs .thingInterval = .ok none ∧
    configFile.restoreThingName firstLibrary fs (ascii "thing 1") = .ok (some (ascii "Garage")) := by
  have hround : ∀ d ∈ documents [] ((firstCalls.map (configFile, ·)).map (·.2)),
      firstLibrary.parse (firstLibrary.print d) = .ok d := by
    simp only [firstCalls, List.map_cons, List.map_nil, documents, List.forall_mem_cons]
    exact ⟨rfl, rfl, by simp⟩
  have hempty : readProperties firstLibrary (fun _ => none) configFile.path = .ok [] := rfl
  have hpath : configFile.path = configFile.path := rfl
  obtain ⟨⟨fs, hrun, hvalue, hname⟩, -⟩ := configuration_file_is_a_map firstLibrary hempty
    (by simp) (by simp [firstCalls, Named, ascii]) hround hpath
  exact ⟨fs, hrun, hvalue _, hvalue _, hname _ (by decide)⟩

end Save

end File

end Neubau.Common
