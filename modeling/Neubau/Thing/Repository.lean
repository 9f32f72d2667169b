import Neubau.Common.Basic

/-! Things and the repository that keeps them. A `Thing` is what a shared
pointer points to; its `object` tells objects apart that are equal otherwise.
The repository throws before it changes anything. -/

namespace Neubau.Common

structure Thing where
  object : ℕ
  id : Bytes
  name : Bytes
  id_ne : id ≠ []
  deriving DecidableEq, Repr

/-- The constructor of `Thing`. -/
def Thing.create (object : ℕ) (id : Bytes) : Except Exception Thing :=
  if h : id = [] then .error (.invalidArgument "thing id must not be empty")
  else .ok { object, id, name := id, id_ne := h }

/-- What the repository asks of the configuration file; the lookup may throw. -/
structure Persistence where
  restoreThingName : Bytes → Except Exception (Option Bytes)

/-- `ThingRepository`; `snapshot` is the value `things()` holds for subscribers. -/
structure ThingRepository where
  things : List Thing := []
  snapshot : List Thing := []
  deriving DecidableEq, Repr

namespace ThingRepository

def find (r : ThingRepository) (id : Bytes) : Option Thing := r.things.find? (·.id = id)

def emitThings (r : ThingRepository) : ThingRepository := { r with snapshot := r.things }

/-- `add`; a null pointer is `none`. -/
def add (p : Persistence) (r : ThingRepository) (thing : Option Thing) :
    Except Exception ThingRepository := do
  let some thing := thing | throw (.invalidArgument "thing must not be null")
  if (r.find thing.id).isSome then throw (.invalidArgument "thing id must be unique")
  let restoredName ← p.restoreThingName thing.id
  let thing := { thing with name := restoredName.getD thing.id }
  return { r with things := r.things ++ [thing] }.emitThings

def remove (r : ThingRepository) (thing : Thing) : ThingRepository :=
  match r.things.findIdx? (·.object = thing.object) with
  | none => r
  | some position => { r with things := r.things.eraseIdx position }.emitThings

end ThingRepository

end Neubau.Common
