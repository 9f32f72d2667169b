import Neubau.Sunspec.ElgrisMeter

/-! What the parser makes of registers. The length is checked before anything is read, so
that no read leaves the registers. An MPPT model is a head with blocks behind it; each block
is parsed for itself, with the scale factors of the head, and the first that has no value
leaves the whole model without one. -/

namespace Neubau.Sunspec

open Neubau.Common Neubau.Stream

variable {D : Type} {F : Doubles D} {scale : D → ℤ → Option D}

/-- The ids that have a parser, each with the lengths that it takes. -/
inductive HasShape : UInt16 → ℕ → Prop
  | inverter {id : UInt16} : id = 101 ∨ id = 103 → HasShape id 50
  | mppt (k : ℕ) : HasShape 160 (8 + 20 * k)
  | meter : HasShape 203 105

/-- An inverter's registers are parsed by reads inside them. -/
theorem parseInverter_ok (id : UInt16) (r : Vector UInt16 50) :
    ∃ result, parseInverter F scale id r.toList = .ok result := by
  simp only [parseInverter, Vector.length_toList, ne_eq, not_true_eq_false, ↓reduceIte,
    Nat.reduceLT, readAt_toList, Fin.reduceFinMk, ok_bind]
  cases scaledInteger F scale (max 0 (signedWord (r.get 12))) (signedWord (r.get 13)) with
  | none => exact ⟨none, rfl⟩
  | some activePower =>
    cases roundedScaledEnergy F scale (mostSignificantWordFirst (r.get 22) (r.get 23))
        (signedWord (r.get 24)) with
    | none => exact ⟨none, rfl⟩
    | some exportedEnergy => exact ⟨_, rfl⟩

/-! ### The blocks of an MPPT model -/

/-- A block, under the scale factors of the head. -/
def mpptBlock (F : Doubles D) (scale : D → ℤ → Option D) (head : Vector UInt16 8)
    (block : Vector UInt16 20) : Option (SunSpecBlock D) :=
  let scaled (value : UInt16) := scale (F.ofInteger (availableValue value).toNat)
  match scaled (block.get 9) (signedWord (head.get 0)),
      scaled (block.get 10) (signedWord (head.get 1)),
      scaled (block.get 11) (signedWord (head.get 2)) with
  | some current, some voltage, some power =>
    some [(.current, current), (.voltage, voltage), (.power, power)]
  | _, _, _ => none

/-- The model with these blocks. -/
def mpptModel (dc : List (SunSpecBlock D)) : SunspecModel D :=
  { id := 160, values := [(.dc, .blocks dc)] }

/-- A pass of the loop reads the block of its index. -/
theorem parseMpptBlock_eq (head : Vector UInt16 8) (blocks : List (Vector UInt16 20)) {i : ℕ}
    (hi : i < blocks.length) :
    parseMpptBlock F scale (head.toList ++ entries blocks) (signedWord (head.get 0))
      (signedWord (head.get 1)) (signedWord (head.get 2)) i =
        .ok (mpptBlock F scale head blocks[i]) := by
  simp only [parseMpptBlock, readAt_block head blocks hi, Fin.reduceFinMk, ok_bind, mpptBlock,
    Nat.reduceLT, pure, Except.pure]
  split <;> simp_all

theorem parseMppt_eq (head : Vector UInt16 8) (blocks : List (Vector UInt16 20)) :
    parseMppt F scale (head.toList ++ entries blocks) =
      .ok ((blocks.mapM (mpptBlock F scale head)).map mpptModel) := by
  have hlen : (head.toList ++ entries blocks).length = 8 + blocks.length * 20 := by
    rw [List.length_append, length_entries, Vector.length_toList]
  have hcount : (8 + blocks.length * 20 - 8) / 20 = blocks.length := by omega
  have hloop : collect (parseMpptBlock F scale (head.toList ++ entries blocks)
      (signedWord (head.get 0)) (signedWord (head.get 1)) (signedWord (head.get 2)))
      blocks.length 0 [] = .ok ((blocks.mapM (mpptBlock F scale head)).map ([] ++ ·)) := by
    refine collect_eq blocks 0 [] fun i hi => ?_
    rw [Nat.zero_add]
    exact parseMpptBlock_eq head blocks hi
  simp only [parseMppt, hlen, hcount, readAt_head, Nat.reduceLT, Fin.reduceFinMk, ok_bind, hloop]
  rw [if_neg (by omega)]
  cases blocks.mapM (mpptBlock F scale head) <;> rfl

/-! ### Any registers -/

/-- A parser's result: no read left the registers, and a model needs the shape. -/
def Within (id : UInt16) (length : ℕ) (outcome : Except ℕ (Option (SunspecModel D))) : Prop :=
  ∃ result, outcome = .ok result ∧ (result.isSome → HasShape id length)

theorem Within.none (id : UInt16) (length : ℕ) :
    Within (D := D) id length (.ok none) :=
  ⟨_, rfl, fun h => by cases h⟩

theorem parseInverter_within {id : UInt16} (hid : id = 101 ∨ id = 103) (registers : List UInt16) :
    Within id registers.length (parseInverter F scale id registers) := by
  by_cases hlen : registers.length = 50
  · obtain ⟨r, rfl⟩ := exists_vector hlen
    obtain ⟨result, hresult⟩ : ∃ result, parseInverter F scale id r.toList = .ok result :=
      parseInverter_ok id r
    exact ⟨result, hresult, fun _ => by rw [hlen]; exact .inverter hid⟩
  · rw [parseInverter, if_pos hlen]
    exact .none _ _

theorem parseMppt_within (registers : List UInt16) :
    Within 160 registers.length (parseMppt F scale registers) := by
  by_cases hlen : registers.length < 8 ∨ (registers.length - 8) % 20 ≠ 0
  · rw [parseMppt, if_pos hlen]
    exact .none _ _
  · obtain ⟨hhead, hblocks⟩ := not_or.1 hlen
    obtain ⟨head, blocks, -, hsplit⟩ := exists_blocks (not_lt.1 hhead) (not_not.1 hblocks)
    refine ⟨_, hsplit ▸ parseMppt_eq head blocks, fun _ => ?_⟩
    rw [show registers.length = 8 + 20 * ((registers.length - 8) / 20) by omega]
    exact .mppt _

theorem parseMeter_within (registers : List UInt16) (elgris : Bool) :
    Within 203 registers.length (parseMeter F scale registers elgris) := by
  by_cases hlen : registers.length = 105
  · obtain ⟨r, rfl⟩ := exists_vector hlen
    exact ⟨_, parseMeter_eq r elgris, fun _ => by rw [hlen]; exact .meter⟩
  · rw [parseMeter, if_pos hlen]
    exact .none _ _

theorem parseModel_within (id : UInt16) (registers : List UInt16) (manufacturer : Bytes) :
    Within id registers.length (parseModel F scale id registers manufacturer) := by
  unfold parseModel
  split_ifs with hinverter hmppt hmeter
  · exact parseInverter_within hinverter registers
  · subst hmppt
    exact parseMppt_within registers
  · subst hmeter
    exact parseMeter_within registers _
  · exact .none _ _

/-! ### Block by block -/

theorem parseModel_mppt (head : Vector UInt16 8) (blocks : List (Vector UInt16 20))
    (manufacturer : Bytes) :
    parseModel F scale 160 (head.toList ++ entries blocks) manufacturer =
      .ok ((blocks.mapM (mpptBlock F scale head)).map mpptModel) := by
  rw [parseModel, if_neg (by decide), if_pos rfl, parseMppt_eq]

/-- A block alone behind the head. -/
theorem parseModel_block (head : Vector UInt16 8) (block : Vector UInt16 20)
    (manufacturer : Bytes) :
    parseModel F scale 160 (head.toList ++ block.toList) manufacturer =
      .ok ((mpptBlock F scale head block).map fun values => mpptModel [values]) := by
  have halone : entries [block] = block.toList := List.flatMap_singleton _ _
  rw [← halone, parseModel_mppt, List.mapM_cons, List.mapM_nil]
  cases mpptBlock F scale head block <;> rfl

/-- Parsing succeeded with this model. -/
def Parses (outcome : Except ℕ (Option (SunspecModel D))) (model : SunspecModel D) : Prop :=
  outcome = .ok (some model)

theorem exists_parses {α : Type} (outcome : Option α) (f : α → SunspecModel D) :
    (∃ model, Parses (.ok (outcome.map f)) model) ↔ outcome.isSome := by
  cases outcome <;> simp [Parses]

/-- No read leaves the registers, and only registers of a known shape have a model. The
blocks of an MPPT model are parsed as each of them is alone behind the head. -/
theorem model_parsing_bounded_and_blockwise (F : Doubles D) (scale : D → ℤ → Option D)
    (manufacturer : Bytes) :
    (∀ id registers, Within id registers.length (parseModel F scale id registers manufacturer)) ∧
    ∀ (head : Vector UInt16 8) (blocks : List (Vector UInt16 20)),
      let whole := parseModel F scale 160 (head.toList ++ entries blocks) manufacturer
      let alone (block : Vector UInt16 20) :=
        parseModel F scale 160 (head.toList ++ block.toList) manufacturer
      ((∃ model, Parses whole model) ↔ ∀ block ∈ blocks, ∃ model, Parses (alone block) model) ∧
      ∀ model, Parses whole model → ∃ dc, model = mpptModel dc ∧
        List.Forall₂ (fun block values => Parses (alone block) (mpptModel [values])) blocks dc := by
  refine ⟨fun id registers => parseModel_within id registers manufacturer, fun head blocks => ?_⟩
  dsimp only
  constructor
  · simp only [exists_parses, parseModel_mppt, parseModel_block, mapM_isSome]
  · intro model hmodel
    rw [Parses, parseModel_mppt, Except.ok.injEq, Option.map_eq_some_iff] at hmodel
    obtain ⟨dc, hdc, rfl⟩ := hmodel
    refine ⟨dc, rfl, (mapM_eq_some.1 hdc).imp fun block values hblock => ?_⟩
    rw [Parses, parseModel_block, hblock]
    rfl

/-- Two blocks, and no value is available in the second. -/
example : parseModel rationals rationals.scale 160
    ([0xffff, 1] ++ List.replicate 6 0 ++ (List.replicate 9 0 ++ [123, 230, 456] ++
      List.replicate 8 0) ++ (List.replicate 9 0 ++ [0xffff, 0xffff, 0xffff] ++
      List.replicate 8 0)) [] =
    .ok (some (mpptModel [[(.current, 123 / 10), (.voltage, 2300), (.power, 456)],
      [(.current, 0), (.voltage, 0), (.power, 0)]])) := by decide +kernel

end Neubau.Sunspec
