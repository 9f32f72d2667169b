import Neubau.Common.Toml
import Neubau.Thing.Repository
import Mathlib.Logic.Function.Basic

/-! The configuration file. Every operation reads the whole document, looks at
it or changes it, and a change writes the whole document again, through a
temporary file that replaces the old one. Global properties are entries of the
document; the names of things are in tables of their own under `things`. An
operation that throws has not written anything. -/

namespace Neubau.Common

open Toml

inductive PropertyKey
  | discoveryInterval
  | thingInterval
  deriving DecidableEq, Repr

/-- `propertyName`: the enumerator as it is spelt. -/
def propertyName : PropertyKey → Bytes
  | .discoveryInterval => ascii "discoveryInterval"
  | .thingInterval => ascii "thingInterval"

/-- `detail::StoredPropertyValue`. -/
inductive StoredPropertyValue
  | boolean (value : Bool)
  | integer (value : Int64)
  | floatingPoint (bits : UInt64)
  | string (value : Bytes)

def StoredPropertyValue.node : StoredPropertyValue → Node
  | .boolean value => .boolean value
  | .integer value => .integer value
  | .floatingPoint bits => .floatingPoint bits
  | .string value => .string value

/-- `PropertyCodec<Seconds>::encode`; every property is a number of seconds, and
the count of `Seconds` has 64 bits. -/
def encode (value : Int64) : StoredPropertyValue := .integer value

/-- `PropertyCodec<Seconds>::decode`. -/
def decode : StoredPropertyValue → Except Exception Int64
  | .integer count => .ok count
  | _ => .error (.invalidArgument "persisted seconds value must be an integer")

def validateThingId (id : Bytes) : Except Exception Unit :=
  if id = [] then .error (.invalidArgument "thing id must not be empty") else .ok ()

/-- `readValue`. -/
def readValue (node : Node) (key : PropertyKey) : Except Exception StoredPropertyValue :=
  match node with
  | .boolean value => .ok (.boolean value)
  | .integer value => .ok (.integer value)
  | .floatingPoint bits => .ok (.floatingPoint bits)
  | .string value => .ok (.string value)
  | _ => .error (.invalidArgument ("unsupported TOML value for property " ++
      match key with
      | .discoveryInterval => "discoveryInterval"
      | .thingInterval => "thingInterval"))

/-- The contents of the files that exist. -/
abbrev FileSystem := Bytes → Option Bytes

/-- `Persistence::State`. -/
structure Persistence.State where
  path : Bytes
  path_ne : path ≠ []

section File

variable (lib : Library)

def readProperties (fs : FileSystem) (path : Bytes) : Except Exception Table :=
  match fs path with
  | none => .ok []
  | some text =>
    match lib.parse text with
    | .ok properties => .ok properties
    | .error description =>
      .error (.runtimeError ("invalid TOML persistence file: " ++ description))

/-- `writeProperties`, where nothing fails: the document goes to a temporary file,
which is renamed. -/
def writeProperties (fs : FileSystem) (path : Bytes) (properties : Table) : FileSystem :=
  let temporary := path ++ ascii ".tmp"
  let fs := Function.update fs temporary (some (lib.print properties))
  Function.update (Function.update fs path (fs temporary)) temporary none

namespace Persistence.State

variable (s : Persistence.State)

def read (fs : FileSystem) (key : PropertyKey) : Except Exception (Option StoredPropertyValue) := do
  let properties ← readProperties lib fs s.path
  match properties.get (propertyName key) with
  | none => return none
  | some node => return some (← readValue node key)

def write (fs : FileSystem) (key : PropertyKey) (value : StoredPropertyValue) :
    Except Exception FileSystem := do
  let properties ← readProperties lib fs s.path
  return writeProperties lib fs s.path
    (properties.insertOrAssign (propertyName key) value.node)

def save (fs : FileSystem) (key : PropertyKey) (value : Int64) : Except Exception FileSystem :=
  s.write lib fs key (encode value)

def restore (fs : FileSystem) (key : PropertyKey) : Except Exception (Option Int64) := do
  match ← s.read lib fs key with
  | none => return none
  | some encoded => return some (← decode encoded)

def restoreThingName (fs : FileSystem) (id : Bytes) : Except Exception (Option Bytes) := do
  validateThingId id
  let properties ← readProperties lib fs s.path
  let some things := properties.getTable (ascii "things") | return none
  let some thing := things.getTable id | return none
  match thing.get (ascii "name") with
  | none => return none
  | some (.string name) => return some name
  | some _ => throw (.invalidArgument "persisted thing name must be a string")

def saveThingName (fs : FileSystem) (id name : Bytes) : Except Exception FileSystem := do
  validateThingId id
  let properties ← readProperties lib fs s.path
  -- the tables are there already or made empty, and changed in their place
  let things := (properties.getTable (ascii "things")).getD []
  let thing := (things.getTable id).getD []
  let thing := thing.insertOrAssign (ascii "name") (.string name)
  let things := things.insertOrAssign id (.table thing)
  return writeProperties lib fs s.path (properties.insertOrAssign (ascii "things") (.table things))

/-- The lookup the repository of things is given. -/
def lookup (fs : FileSystem) : Persistence where
  restoreThingName := s.restoreThingName lib fs

end Persistence.State

end File

end Neubau.Common
