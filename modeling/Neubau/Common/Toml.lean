import Neubau.Common.Basic

/-! TOML documents as a program sees them. A table is a map from keys to nodes,
kept in the order of its keys; a node is a value or a table again. Reading the
text of a document and printing it is left to a library. -/

namespace Neubau.Common.Toml

/-- A node. A `double` is kept by its bits; arrays and the types of dates and
times are `other`, by their text. -/
inductive Node
  | boolean (value : Bool)
  | integer (value : Int64)
  | floatingPoint (bits : UInt64)
  | string (value : Bytes)
  | table (entries : List (Bytes × Node))
  | other (text : Bytes)

abbrev Table := List (Bytes × Node)

def Table.get : Table → Bytes → Option Node
  | [], _ => none
  | (k, node) :: rest, key => if k = key then some node else Table.get rest key

/-- `get_as<toml::table>`. -/
def Table.getTable (t : Table) (key : Bytes) : Option Table :=
  match t.get key with
  | some (.table entries) => some entries
  | _ => none

/-- `insert_or_assign`; a new key goes to its place in the order. -/
def Table.insertOrAssign (key : Bytes) (node : Node) : Table → Table
  | [] => [(key, node)]
  | (k, old) :: rest =>
    if k = key then (k, node) :: rest
    else if key < k then (key, node) :: (k, old) :: rest
    else (k, old) :: Table.insertOrAssign key node rest

/-- The library that reads and prints documents. -/
structure Library where
  parse : Bytes → Except String Table
  print : Table → Bytes

theorem get_insertOrAssign (t : Table) (key k : Bytes) (node : Node) :
    (t.insertOrAssign key node).get k = if key = k then some node else t.get k := by
  induction t with
  | nil => rfl
  | cons e rest ih =>
    obtain ⟨k', old⟩ := e
    by_cases hkey : k' = key
    · subst hkey
      by_cases hk : k' = k
      · simp [Table.insertOrAssign, Table.get, hk]
      · simp [Table.insertOrAssign, Table.get, hk]
    · by_cases hlt : key < k'
      · simp only [Table.insertOrAssign, Table.get, if_neg hkey, if_pos hlt]
      · simp only [Table.insertOrAssign, Table.get, if_neg hkey, if_neg hlt, ih]
        by_cases hk : k' = k
        · rw [if_pos hk, if_pos hk, if_neg (fun h => hkey (hk.trans h.symm))]
        · rw [if_neg hk, if_neg hk]

@[simp] theorem get_insertOrAssign_self (t : Table) (key : Bytes) (node : Node) :
    (t.insertOrAssign key node).get key = some node := by
  rw [get_insertOrAssign, if_pos rfl]

theorem get_insertOrAssign_ne (t : Table) {key k : Bytes} (node : Node) (h : key ≠ k) :
    (t.insertOrAssign key node).get k = t.get k := by
  rw [get_insertOrAssign, if_neg h]

end Neubau.Common.Toml
