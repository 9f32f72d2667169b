import Mathlib.Data.List.DropRight
import Neubau.Mdns.MdnsDiscovery

/-! The query for a service type. The type is completed to a domain name, and the
name is written label by label. The loop that writes the labels stops at an empty
one, so that the query names the domain of the type unless that has one. -/

namespace Neubau.Mdns

open Neubau.Common

def dot : UInt8 := 46

def endsWithCaseInsensitive (value suffix : Bytes) : Bool :=
  decide (suffix.length ≤ value.length) && (dnsKey suffix).isSuffixOf (dnsKey value)

/-- The loop of `normalizeServiceType`. -/
def stripDots (serviceType : Bytes) : Bytes := serviceType.rdropWhile (· = dot)

def normalizeServiceType (serviceType : Bytes) : Except Exception Bytes :=
  let serviceType := stripDots serviceType
  if serviceType = [] then .error (.invalidArgument "mDNS service type cannot be empty")
  else
    let serviceType :=
      if endsWithCaseInsensitive serviceType (ascii ".local") then serviceType
      else serviceType ++ ascii ".local"
    .ok (serviceType ++ [dot])

/-- The loop of `ptrQuery` on what stands from `begin` on, for at most `n` rounds. -/
def pushLabels : ℕ → Bytes → Bytes → Except Exception Bytes
  | 0, _, result => .ok result
  | n + 1, rest, result =>
    match rest.idxOf? dot with
    | none => .ok result
    | some length =>
      if length = 0 then .ok result
      else if 63 < length then .error (.invalidArgument "mDNS label exceeds 63 bytes")
      else
        pushLabels n (rest.drop (length + 1))
          (result ++ UInt8.ofNat length :: rest.take length)

/-- The header, with one question. -/
def queryHeader : Bytes := (List.replicate 12 0).set 5 1

/-- Every round consumes a byte. -/
def ptrQuery (serviceType : Bytes) : Except Exception Bytes := do
  let result ← pushLabels serviceType.length serviceType queryHeader
  return result ++ [0, 0, recordTypePtr.toUInt8, 0x80, 1]

/-- `discover`, up to the datagram that it sends. -/
def discover (serviceType : Bytes) : Except Exception Bytes := do
  ptrQuery (← normalizeServiceType serviceType)

/-! ### Domain names -/

/-- The labels of the name at the start of a message, with the root, and what is
behind it. -/
def decodeName : ℕ → Bytes → Option (List Bytes × Bytes)
  | 0, _ => none
  | _ + 1, [] => none
  | n + 1, length :: rest =>
    if length = 0 then some ([[]], rest)
    else if 63 < length ∨ rest.length < length.toNat then none
    else
      (decodeName n (rest.drop length.toNat)).map fun decoded =>
        (rest.take length.toNat :: decoded.1, decoded.2)

/-- The message asks one question, for the PTR records of a name, to be answered by
unicast. -/
def AsksFor (message : Bytes) (labels : List Bytes) : Prop :=
  message.take 12 = [0, 0, 0, 0, 0, 1, 0, 0, 0, 0, 0, 0] ∧
    decodeName message.length (message.drop 12) = some (labels, [0, 12, 0x80, 1])

instance (message : Bytes) (labels : List Bytes) : Decidable (AsksFor message labels) :=
  inferInstanceAs (Decidable (_ ∧ _))

/-- A type is rejected as an argument, or the query asks for the labels of its
normal form, of which the last one is the root. -/
def Faithful (serviceType : Bytes) : Prop :=
  match discover serviceType with
  | .error e => ∃ what, e = .invalidArgument what
  | .ok message => ∃ name, normalizeServiceType serviceType = .ok name ∧
      AsksFor message (name.splitOn dot)

/-- The labels of a type before the dots at its end. -/
def typeLabels (serviceType : Bytes) : List Bytes :=
  (stripDots serviceType).splitOn dot

/-- The labels before the first empty one. -/
def leading (labels : List Bytes) : List Bytes := labels.takeWhile (· ≠ [])

/-- The type is all dots, or no label of it is empty, or one before the first empty one
is too long. -/
def Encodable (serviceType : Bytes) : Prop :=
  stripDots serviceType = [] ∨ [] ∉ typeLabels serviceType ∨
    ∃ label ∈ leading (typeLabels serviceType), 63 < label.length

instance (serviceType : Bytes) : Decidable (Encodable serviceType) :=
  inferInstanceAs (Decidable (_ ∨ _))

/-- A label behind its length. -/
def encodeLabel (label : Bytes) : Bytes := UInt8.ofNat label.length :: label

theorem decodeName_labels {labels : List Bytes} {tail : Bytes} {n : ℕ}
    (h : ∀ label ∈ labels, label ≠ [] ∧ label.length ≤ 63) (hn : labels.length < n) :
    decodeName n (labels.flatMap encodeLabel ++ 0 :: tail) = some (labels ++ [[]], tail) := by
  induction labels generalizing n with
  | nil =>
    obtain ⟨n, rfl⟩ : ∃ k, n = k + 1 := ⟨n - 1, by omega⟩
    rfl
  | cons label labels ih =>
    obtain ⟨n, rfl⟩ : ∃ k, n = k + 1 := ⟨n - 1, by omega⟩
    rw [List.length_cons] at hn
    obtain ⟨hne, hlen⟩ := h label List.mem_cons_self
    have hpos := List.length_pos_iff.2 hne
    have hbyte : (UInt8.ofNat label.length).toNat = label.length := by
      rw [UInt8.toNat_ofNat']
      omega
    have hnz : UInt8.ofNat label.length ≠ 0 := by
      intro hzero
      rw [← UInt8.toNat_inj, hbyte] at hzero
      exact hpos.ne' hzero
    have hle : ¬63 < UInt8.ofNat label.length := by
      rw [UInt8.lt_iff_toNat_lt, hbyte]
      exact not_lt.2 hlen
    simp only [List.flatMap_cons, encodeLabel, List.cons_append, List.append_assoc]
    rw [decodeName, if_neg hnz, hbyte, if_neg (by simp [hle]), List.take_left' rfl,
      List.drop_left' rfl, ih (fun l hl => h l (List.mem_cons_of_mem _ hl)) (by omega)]
    rfl

/-! ### The loop -/

theorem leading_cons {label : Bytes} {labels : List Bytes} (h : label ≠ []) :
    leading (label :: labels) = label :: leading labels :=
  List.takeWhile_cons_of_pos (decide_eq_true h)

theorem leading_nil_cons {labels : List Bytes} : leading ([] :: labels) = [] :=
  List.takeWhile_cons_of_neg (by simp)

theorem ne_nil_of_mem_leading {labels : List Bytes} {label : Bytes} (h : label ∈ leading labels) :
    label ≠ [] := by
  simpa using List.mem_takeWhile_imp (p := fun l => decide (l ≠ [])) h

theorem leading_append_of_mem {labels labels' : List Bytes} (h : [] ∈ labels) :
    leading (labels ++ labels') = leading labels := by
  induction labels with
  | nil => simp at h
  | cons label labels ih =>
    rw [List.cons_append]
    rcases eq_or_ne label [] with rfl | hlabel
    · rw [leading_nil_cons, leading_nil_cons]
    · have hmem : [] ∈ labels := (List.mem_cons.1 h).resolve_left (Ne.symm hlabel)
      rw [leading_cons hlabel, leading_cons hlabel, ih hmem]

theorem leading_eq_self_iff {labels : List Bytes} : leading labels = labels ↔ [] ∉ labels := by
  rw [leading, List.takeWhile_eq_self_iff]
  constructor
  · intro h hmem
    exact of_decide_eq_true (h [] hmem) rfl
  · intro h label hlabel
    exact decide_eq_true fun heq => h (heq ▸ hlabel)

/-- The labels up to the first empty one are written, if none of them is too long. -/
theorem pushLabels_labels {labels : List Bytes} {result : Bytes} {n : ℕ}
    (h : ∀ label ∈ labels, dot ∉ label) (hn : (labels.flatMap (· ++ [dot])).length ≤ n) :
    pushLabels n (labels.flatMap (· ++ [dot])) result =
      if ∃ label ∈ leading labels, 63 < label.length then
        .error (.invalidArgument "mDNS label exceeds 63 bytes")
      else .ok (result ++ (leading labels).flatMap encodeLabel) := by
  induction labels generalizing n result with
  | nil => cases n <;> simp [pushLabels, leading]
  | cons label labels ih =>
    simp only [List.flatMap_cons, List.append_assoc, List.length_append, List.singleton_append,
      List.length_cons] at hn ⊢
    obtain ⟨n, rfl⟩ : ∃ k, n = k + 1 := ⟨n - 1, by omega⟩
    rw [pushLabels, idxOf?_append_cons (h label List.mem_cons_self)]
    dsimp only
    rcases eq_or_ne label [] with rfl | hlabel
    · simp [leading_nil_cons]
    · rw [if_neg (by simpa using hlabel), leading_cons hlabel]
      by_cases hlong : 63 < label.length
      · rw [if_pos hlong, if_pos ⟨label, List.mem_cons_self, hlong⟩]
      · have hrest : (label ++ dot :: labels.flatMap (· ++ [dot])).drop (label.length + 1) =
            labels.flatMap (· ++ [dot]) := by
          rw [← List.drop_drop, List.drop_left' rfl, List.drop_one, List.tail_cons]
        have hnext := @ih (result ++ encodeLabel label) n
          (fun l hl => h l (List.mem_cons_of_mem _ hl)) (by omega)
        rw [if_neg hlong, hrest, List.take_left' rfl]
        simpa [hlong, encodeLabel, List.append_assoc] using hnext

theorem dot_notMem_of_mem_splitOn {text label : Bytes} (h : label ∈ text.splitOn dot) :
    dot ∉ label := by
  induction text generalizing label with
  | nil => simp_all
  | cons b text ih =>
    rw [List.splitOn_cons_eq_if_modifyHead] at h
    split_ifs at h with hb
    · rcases List.mem_cons.1 h with rfl | h
      · exact List.not_mem_nil
      · exact ih h
    · obtain ⟨first, rest, hsplit⟩ := List.exists_cons_of_ne_nil (List.splitOn_ne_nil dot text)
      rw [hsplit, List.modifyHead_cons] at h
      rcases List.mem_cons.1 h with rfl | h
      · have hfirst : dot ∉ first := ih (by rw [hsplit]; exact List.mem_cons_self)
        rw [List.mem_cons, not_or]
        exact ⟨fun heq => hb (by simp [heq]), hfirst⟩
      · exact ih (by rw [hsplit]; exact List.mem_cons_of_mem _ h)

/-- A name ends each of its labels with a dot. -/
theorem flatMap_splitOn (text : Bytes) :
    (text.splitOn dot).flatMap (· ++ [dot]) = text ++ [dot] := by
  have hjoin (labels : List Bytes) (hne : labels ≠ []) :
      labels.flatMap (· ++ [dot]) = [dot].intercalate labels ++ [dot] := by
    induction labels with
    | nil => exact absurd rfl hne
    | cons label labels ih =>
      rcases eq_or_ne labels [] with rfl | hlabels
      · simp
      · rw [List.flatMap_cons, ih hlabels, List.intercalate_cons_of_ne_nil hlabels]
        simp
  rw [hjoin _ (List.splitOn_ne_nil dot text), List.intercalate_splitOn]

/-! ### The normal form -/

/-- The domain name of a type without dots at its end. -/
def domain (serviceType : Bytes) : Bytes :=
  if endsWithCaseInsensitive serviceType (ascii ".local") then serviceType
  else serviceType ++ ascii ".local"

theorem normalizeServiceType_of_eq_nil {serviceType : Bytes}
    (h : stripDots serviceType = []) : normalizeServiceType serviceType =
      .error (.invalidArgument "mDNS service type cannot be empty") := by
  simp [normalizeServiceType, h]

theorem normalizeServiceType_of_ne_nil {serviceType : Bytes}
    (h : stripDots serviceType ≠ []) :
    normalizeServiceType serviceType = .ok (domain (stripDots serviceType) ++ [dot]) := by
  simp [normalizeServiceType, h, domain]

theorem endsWithCaseInsensitive_append (value suffix : Bytes) :
    endsWithCaseInsensitive (value ++ suffix) suffix = true := by
  simp [endsWithCaseInsensitive, dnsKey]

theorem domain_ends (serviceType : Bytes) :
    endsWithCaseInsensitive (domain serviceType) (ascii ".local") = true := by
  unfold domain
  split_ifs with h
  · exact h
  · exact endsWithCaseInsensitive_append _ _

theorem domain_domain (serviceType : Bytes) : domain (domain serviceType) = domain serviceType :=
  if_pos (domain_ends serviceType)

/-- The domain name has no dots at its end either. -/
theorem domain_stripped {serviceType : Bytes} :
    (domain (stripDots serviceType)).rdropWhile (· = dot) =
      domain (stripDots serviceType) := by
  unfold domain
  split_ifs with h
  · exact List.rdropWhile_idempotent _ _
  · rw [List.rdropWhile_eq_self_iff]
    intro hne
    rw [List.getLast_append_of_ne_nil _ (by decide)]
    decide

theorem domain_ne_nil (serviceType : Bytes) : domain serviceType ≠ [] := by
  intro h
  have hends := domain_ends serviceType
  rw [h] at hends
  exact absurd hends (by decide)

theorem normalizeServiceType_idem {serviceType name : Bytes}
    (h : normalizeServiceType serviceType = .ok name) : normalizeServiceType name = .ok name := by
  by_cases hempty : stripDots serviceType = []
  · rw [normalizeServiceType_of_eq_nil hempty] at h
    exact nomatch h
  · rw [normalizeServiceType_of_ne_nil hempty] at h
    obtain rfl := Except.ok.inj h
    have hstripped : stripDots (domain (stripDots serviceType) ++ [dot]) =
        domain (stripDots serviceType) := by
      rw [stripDots, List.rdropWhile_concat_pos (fun c => decide (c = dot)) _ dot (by decide)]
      exact domain_stripped
    rw [normalizeServiceType_of_ne_nil (by rw [hstripped]; exact domain_ne_nil _), hstripped,
      domain_domain]

/-! ### Faithful queries -/

section

variable {serviceType : Bytes} {labels : List Bytes}

/-- What `discover` makes of the labels of the domain. -/
theorem discover_eq (h : stripDots serviceType ≠ []) :
    discover serviceType =
      let labels := leading ((domain (stripDots serviceType)).splitOn dot)
      if ∃ label ∈ labels, 63 < label.length then
        .error (.invalidArgument "mDNS label exceeds 63 bytes")
      else .ok (queryHeader ++ (labels.flatMap encodeLabel ++ 0 :: [0, 12, 0x80, 1])) := by
  have hpush := @pushLabels_labels ((domain (stripDots serviceType)).splitOn dot) queryHeader _
    (fun label hl => dot_notMem_of_mem_splitOn hl) le_rfl
  rw [flatMap_splitOn] at hpush
  rw [discover, normalizeServiceType_of_ne_nil h]
  change ptrQuery _ = _
  rw [ptrQuery, hpush]
  dsimp only
  split_ifs
  · rfl
  · rw [← List.append_assoc]
    rfl

theorem asksFor_iff {asked : List Bytes} (h : ∀ label ∈ labels, label ≠ [] ∧ label.length ≤ 63) :
    AsksFor (queryHeader ++ (labels.flatMap encodeLabel ++ 0 :: [0, 12, 0x80, 1])) asked ↔
      asked = labels ++ [[]] := by
  have hlen : labels.length ≤ (labels.flatMap encodeLabel).length := by
    clear h
    induction labels with
    | nil => rfl
    | cons label labels ih =>
      simp only [List.flatMap_cons, encodeLabel, List.length_append, List.length_cons]
      omega
  have hfuel : labels.length <
      (queryHeader ++ (labels.flatMap encodeLabel ++ 0 :: [0, 12, 0x80, 1])).length := by
    simp only [List.length_append, List.length_cons]
    omega
  rw [AsksFor, List.take_left' (by decide), List.drop_left' (by decide),
    decodeName_labels h hfuel]
  constructor
  · rintro ⟨-, heq⟩
    exact (congrArg Prod.fst (Option.some.inj heq)).symm
  · rintro rfl
    exact ⟨by decide, rfl⟩

/-- The domain adds a label that is neither empty nor too long, or none. -/
theorem encodable_iff (h : stripDots serviceType ≠ []) :
    Encodable serviceType ↔ [] ∉ (domain (stripDots serviceType)).splitOn dot ∨
      ∃ label ∈ leading ((domain (stripDots serviceType)).splitOn dot), 63 < label.length := by
  rw [Encodable, or_iff_right h, typeLabels, domain]
  split_ifs
  · exact Iff.rfl
  · have hsplit : (stripDots serviceType ++ ascii ".local").splitOn dot =
        (stripDots serviceType).splitOn dot ++ [ascii "local"] :=
      List.splitOn_append_cons_self _ _
    rw [hsplit]
    by_cases hmem : [] ∈ (stripDots serviceType).splitOn dot
    · simp only [leading_append_of_mem hmem, List.mem_append, hmem, true_or]
    · refine iff_of_true (.inl hmem) (.inl ?_)
      rw [List.mem_append, not_or]
      exact ⟨hmem, by decide⟩

theorem faithful_iff : Faithful serviceType ↔ Encodable serviceType := by
  by_cases hempty : stripDots serviceType = []
  · refine iff_of_true ?_ (.inl hempty)
    rw [Faithful, discover, normalizeServiceType_of_eq_nil hempty]
    exact ⟨_, rfl⟩
  · rw [encodable_iff hempty, Faithful, discover_eq hempty]
    dsimp only
    split_ifs with hlong
    · exact iff_of_true ⟨_, rfl⟩ (.inr hlong)
    · rw [or_iff_left hlong, normalizeServiceType_of_ne_nil hempty, ← leading_eq_self_iff]
      have hshort (label : Bytes)
          (hl : label ∈ leading ((domain (stripDots serviceType)).splitOn dot)) :
          label ≠ [] ∧ label.length ≤ 63 :=
        ⟨ne_nil_of_mem_leading hl, not_lt.1 fun hlt => hlong ⟨label, hl, hlt⟩⟩
      have hname : (domain (stripDots serviceType) ++ [dot]).splitOn dot =
          (domain (stripDots serviceType)).splitOn dot ++ [[]] :=
        List.splitOn_append_cons_self _ _
      simp only [Except.ok.injEq, exists_eq_left', hname, asksFor_iff hshort]
      exact ⟨fun heq => (List.append_cancel_right heq).symm, fun heq => by rw [heq]⟩

/-- The normal form of a type is its own normal form. The query for a type is faithful
if and only if no empty label cuts its name short. -/
theorem service_type_queries_faithful_iff (serviceType : Bytes) :
    (∀ name, normalizeServiceType serviceType = .ok name →
      normalizeServiceType name = .ok name) ∧
    (Faithful serviceType ↔ Encodable serviceType) :=
  ⟨fun _ => normalizeServiceType_idem, faithful_iff⟩

/-- The query for a type with an empty label names the labels before it: instead of
`a..b.local` it is for `a`. -/
theorem empty_label_cuts_query :
    normalizeServiceType (ascii "a..b") = .ok (ascii "a..b.local.") ∧
    (∃ message, discover (ascii "a..b") = .ok message ∧ AsksFor message [ascii "a", []]) ∧
    ¬∀ serviceType, Faithful serviceType := by
  refine ⟨by decide, ⟨_, rfl, by decide⟩, fun h => ?_⟩
  exact absurd (faithful_iff.1 (h (ascii "a..b"))) (by decide)

end

end Neubau.Mdns
