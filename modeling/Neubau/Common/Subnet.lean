import Mathlib.Data.Finset.Max
import Mathlib.Data.Nat.Bitwise
import Mathlib.Data.List.TakeWhile
import Neubau.Common.Basic

/-! The subnets that are scanned. A subnet is an address with the bits behind its
prefix cleared; its hosts are counted with 64 bits and numbered with 32. The
functions of the C library that read and write addresses are a parameter. -/

namespace Neubau.Common

/-- `inet_pton` and `inet_ntop` of IPv4 addresses, in the byte order of the host. -/
structure Inet where
  pton : Bytes → Option UInt32
  ntop : UInt32 → Bytes

/-- The functions are inverse to each other, and addresses are written in digits and
dots. -/
structure Inet.Lawful (inet : Inet) : Prop where
  inverse : ∀ text address, inet.pton text = some address ↔ text = inet.ntop address
  dotted : ∀ address, ∀ c ∈ inet.ntop address, c = 46 ∨ 48 ≤ c ∧ c ≤ 57

def slash : UInt8 := 47

/-- Bytes in the text of an exception. -/
def exceptionText (bytes : Bytes) : String := String.ofList (bytes.map fun b => Char.ofNat b.toNat)

/-- The text ends at its first zero, as `c_str` does. -/
def parseIpv4 (inet : Inet) (address : Bytes) : Except Exception UInt32 :=
  match inet.pton (address.takeWhile (· ≠ 0)) with
  | some parsed => .ok parsed
  | none => .error (.invalidArgument ("invalid IPv4 CIDR address: " ++ exceptionText address))

/-- The lengths of a network's prefix. -/
abbrev PrefixLength := {length : UInt8 // length ≤ 32}

def prefixMask (length : PrefixLength) : UInt32 :=
  if length.1 = 0 then 0 else 0xffffffff <<< (32 - length.1.toUInt32)

/-- `std::from_chars` of an `unsigned int`: its value, and what is behind its digits. -/
def fromChars (text : Bytes) : Option (ℕ × Bytes) :=
  let isDigit := fun c : UInt8 => decide (48 ≤ c ∧ c ≤ 57)
  let digits := text.takeWhile isDigit
  let value := digits.foldl (fun value c => 10 * value + (c.toNat - 48)) 0
  if digits = [] ∨ 2 ^ 32 ≤ value then none else some (value, text.dropWhile isDigit)

theorem ofNat_le {value : ℕ} (h : value ≤ 32) : UInt8.ofNat value ≤ 32 := by
  rw [UInt8.le_iff_toNat_le, UInt8.toNat_ofNat']
  exact (Nat.mod_le _ _).trans h

def parsePrefix (prefixText cidr : Bytes) : Except Exception PrefixLength :=
  match fromChars prefixText with
  | none => .error (.invalidArgument ("invalid IPv4 CIDR prefix: " ++ exceptionText cidr))
  | some (value, rest) =>
    if h : rest = [] ∧ value ≤ 32 then .ok ⟨UInt8.ofNat value, ofNat_le h.2⟩
    else .error (.invalidArgument ("invalid IPv4 CIDR prefix: " ++ exceptionText cidr))

structure Subnet where
  cidr : Bytes
  network : UInt32
  prefixLength : PrefixLength
  masked : network &&& prefixMask prefixLength = network

namespace Subnet

/-- The constructor. -/
def ofCidr (inet : Inet) (cidr : Bytes) : Except Exception Subnet := do
  let separator := cidr.idxOf? slash
  let address := match separator with
    | none => cidr
    | some length => cidr.take length
  let prefixText := match separator with
    | none => ascii "32"
    | some length => cidr.drop (length + 1)
  let prefixLength ← parsePrefix prefixText cidr
  let parsed ← parseIpv4 inet address
  let network := parsed &&& prefixMask prefixLength
  return {
    cidr := inet.ntop network ++ slash :: decimal prefixLength.1.toNat
    network
    prefixLength
    masked := by rw [UInt32.and_assoc, UInt32.and_self] }

def addressCount (s : Subnet) : UInt64 := 1 <<< (32 - s.prefixLength.1.toUInt32).toUInt64

def skipNetworkAndBroadcast (s : Subnet) : Bool := s.prefixLength.1 ≤ 30

def hostCount (s : Subnet) : UInt64 :=
  s.addressCount - if s.skipNetworkAndBroadcast then 2 else 0

def first (s : Subnet) : UInt32 := s.network + if s.skipNetworkAndBroadcast then 1 else 0

/-- The locals are the IPv4 addresses of this machine. -/
def hosts (inet : Inet) (s : Subnet) (locals : Finset UInt32) (maxHosts : UInt64) :
    Except Exception (List Bytes) :=
  if maxHosts < s.hostCount then
    .error (.invalidArgument
      ("IPv4 CIDR exceeds the configured host limit: " ++ exceptionText s.cidr))
  else
    .ok ((List.range s.hostCount.toNat).foldl (fun result offset =>
      let address := s.first + UInt32.ofNat offset
      if address ∈ locals then result else result ++ [inet.ntop address]) [])

/-- The first of the set; a `std::set` is sorted. -/
def primaryIpv4Address (locals : Finset UInt32) : Option UInt32 :=
  if h : (locals.image UInt32.toNat).Nonempty then
    some (UInt32.ofNat ((locals.image UInt32.toNat).min' h))
  else none

def primaryLocal (inet : Inet) (locals : Finset UInt32) (length : ℤ) :
    Except Exception (Option Subnet) :=
  if length < 0 ∨ 32 < length then .error (.invalidArgument "invalid IPv4 prefix")
  else
    match primaryIpv4Address locals with
    | none => .ok none
    | some address => do
      let subnet ← ofCidr inet (inet.ntop address ++ slash :: decimal length.toNat)
      return some subnet

end Subnet

/-! ### Networks in numbers -/

/-- The number of addresses that agree in a prefix. -/
def blockSize (length : ℕ) : ℕ := 2 ^ (32 - length)

/-- The number of candidate hosts. -/
def candidates (length : ℕ) : ℕ := blockSize length - if length ≤ 30 then 2 else 0

def networkAddress (length : ℕ) (address : UInt32) : ℕ :=
  address.toNat / blockSize length * blockSize length

def broadcastAddress (length : ℕ) (address : UInt32) : ℕ :=
  networkAddress length address + (blockSize length - 1)

/-- A host shares the network bits, is not local, and is neither the network nor the
broadcast address of a network that has them. -/
structure IsHost (length : ℕ) (address : UInt32) (locals : Finset UInt32) (host : UInt32) :
    Prop where
  shares : host.toNat / blockSize length = address.toNat / blockSize length
  notLocal : host ∉ locals
  between : length ≤ 30 →
    host.toNat ≠ networkAddress length address ∧ host.toNat ≠ broadcastAddress length address

theorem shares_iff {length : ℕ} {address host : UInt32} :
    host.toNat / blockSize length = address.toNat / blockSize length ↔
      networkAddress length address ≤ host.toNat ∧
        host.toNat < networkAddress length address + blockSize length := by
  have hpos : 0 < blockSize length := Nat.two_pow_pos _
  rw [Nat.div_eq_iff hpos, networkAddress]
  constructor <;> rintro ⟨h₁, h₂⟩ <;> constructor <;> omega

theorem toNat_length_le (length : PrefixLength) : length.1.toNat ≤ 32 :=
  UInt8.le_iff_toNat_le.1 length.2

theorem toNat_sub_length (length : PrefixLength) :
    (32 - length.1.toUInt32).toNat = 32 - length.1.toNat := by
  have h := toNat_length_le length
  rw [UInt32.toNat_sub_of_le _ _ (by rw [UInt32.le_iff_toNat_le]; simpa using h)]
  simp

/-- The mask keeps the network bits. -/
theorem toNat_and_prefixMask (address : UInt32) (length : PrefixLength) :
    (address &&& prefixMask length).toNat = networkAddress length.1.toNat address := by
  have hlen := toNat_length_le length
  have hzero : length.1 = 0 ↔ length.1.toNat = 0 := UInt8.toNat_inj.symm
  rw [UInt32.toNat_and, prefixMask, networkAddress, blockSize, ← Nat.shiftLeft_eq,
    ← Nat.shiftRight_eq_div_pow]
  have haddress := address.toNat_lt
  split_ifs with h
  · rw [hzero] at h
    simp only [h, UInt32.toNat_zero, Nat.and_zero, Nat.sub_zero,
      Nat.shiftRight_eq_div_pow, Nat.div_eq_of_lt haddress, Nat.zero_shiftLeft]
  · rw [hzero] at h
    have hshift : (0xffffffff <<< (32 - length.1.toUInt32) : UInt32).toNat =
        (2 ^ 32 - 1) <<< (32 - length.1.toNat) % 2 ^ 32 := by
      rw [UInt32.toNat_shiftLeft, toNat_sub_length, Nat.mod_eq_of_lt (by omega : _ < 32)]
      rfl
    rw [hshift]
    apply Nat.eq_of_testBit_eq
    intro i
    simp only [Nat.testBit_and, Nat.testBit_mod_two_pow, Nat.testBit_shiftLeft,
      Nat.testBit_two_pow_sub_one, Nat.testBit_shiftRight]
    by_cases hi : i < 32
    · by_cases hk : 32 - length.1.toNat ≤ i
      · simp [hi, hk, show i - (32 - length.1.toNat) < 32 by omega]
      · simp [hk]
    · -- the address has no bits there
      have hbit : address.toNat.testBit i = false :=
        Nat.testBit_lt_two_pow (haddress.trans_le (Nat.pow_le_pow_right two_pos (not_lt.1 hi)))
      simp [hbit, show 32 - length.1.toNat + (i - (32 - length.1.toNat)) = i by omega]

namespace Subnet

section

variable {inet : Inet} {s : Subnet} {locals : Finset UInt32} {maxHosts : UInt64}

theorem toNat_addressCount (s : Subnet) :
    s.addressCount.toNat = blockSize s.prefixLength.1.toNat := by
  have hlen := toNat_length_le s.prefixLength
  have hpow : 2 ^ (32 - s.prefixLength.1.toNat) < 2 ^ 64 :=
    Nat.pow_lt_pow_right (by decide) (by omega)
  rw [addressCount, UInt64.toNat_shiftLeft, UInt32.toNat_toUInt64, toNat_sub_length,
    Nat.mod_eq_of_lt (by omega : _ < 64), Nat.shiftLeft_eq, UInt64.toNat_one, one_mul,
    Nat.mod_eq_of_lt hpow, blockSize]

theorem skipNetworkAndBroadcast_iff (s : Subnet) :
    s.skipNetworkAndBroadcast = true ↔ s.prefixLength.1.toNat ≤ 30 := by
  rw [skipNetworkAndBroadcast, decide_eq_true_iff, UInt8.le_iff_toNat_le]
  rfl

/-- There are two addresses to skip where they are skipped. -/
theorem four_le_blockSize {length : ℕ} (h : length ≤ 30) : 4 ≤ blockSize length :=
  Nat.pow_le_pow_right two_pos (by omega : 2 ≤ 32 - length)

theorem toNat_hostCount (s : Subnet) :
    s.hostCount.toNat = candidates s.prefixLength.1.toNat := by
  have hcount := toNat_addressCount s
  rw [hostCount, candidates]
  by_cases h : s.prefixLength.1.toNat ≤ 30
  · have hfour := four_le_blockSize h
    have htwo : (2 : UInt64) ≤ s.addressCount := by
      rw [UInt64.le_iff_toNat_le, hcount]
      exact le_trans (by decide) hfour
    rw [if_pos ((skipNetworkAndBroadcast_iff s).2 h), if_pos h, UInt64.toNat_sub_of_le _ _ htwo,
      hcount]
    rfl
  · rw [if_neg (mt (skipNetworkAndBroadcast_iff s).1 h), if_neg h, UInt64.sub_zero, hcount,
      Nat.sub_zero]

/-- The block of a subnet ends at the last address or before. -/
theorem network_add_blockSize_le (s : Subnet) :
    s.network.toNat + blockSize s.prefixLength.1.toNat ≤ 2 ^ 32 := by
  have hlen := toNat_length_le s.prefixLength
  have hnetwork := toNat_and_prefixMask s.network s.prefixLength
  have hlt := s.network.toNat_lt
  have hpos : 0 < blockSize s.prefixLength.1.toNat := Nat.two_pow_pos _
  have hpow : 2 ^ s.prefixLength.1.toNat * blockSize s.prefixLength.1.toNat = 2 ^ 32 := by
    rw [blockSize, ← pow_add, Nat.add_sub_cancel' hlen]
  rw [s.masked, networkAddress] at hnetwork
  rw [hnetwork, ← hpow] at hlt ⊢
  rw [← Nat.succ_mul]
  exact Nat.mul_le_mul_right _ (Nat.lt_of_mul_lt_mul_right hlt)

/-- The first host, and the addresses from it on, are numbered without overflow. -/
theorem toNat_first (s : Subnet) : s.first.toNat =
    s.network.toNat + if s.prefixLength.1.toNat ≤ 30 then 1 else 0 := by
  have hend := network_add_blockSize_le s
  rw [first]
  by_cases h : s.prefixLength.1.toNat ≤ 30
  · have hfour := four_le_blockSize h
    rw [if_pos ((skipNetworkAndBroadcast_iff s).2 h), if_pos h, UInt32.toNat_add, UInt32.toNat_one,
      Nat.mod_eq_of_lt (by omega)]
  · rw [if_neg (mt (skipNetworkAndBroadcast_iff s).1 h), if_neg h, UInt32.add_zero, Nat.add_zero]

theorem first_add_candidates_le (s : Subnet) :
    s.first.toNat + candidates s.prefixLength.1.toNat ≤ 2 ^ 32 := by
  have hend := network_add_blockSize_le s
  rw [toNat_first, candidates]
  split_ifs with h
  · have hfour := four_le_blockSize h
    omega
  · omega

theorem toNat_address (s : Subnet) {offset : ℕ}
    (h : offset < candidates s.prefixLength.1.toNat) :
    (s.first + UInt32.ofNat offset).toNat = s.first.toNat + offset := by
  have hend := first_add_candidates_le s
  rw [UInt32.toNat_add, UInt32.toNat_ofNat', Nat.mod_eq_of_lt (by omega : offset < 2 ^ 32),
    Nat.mod_eq_of_lt (by omega)]

/-- The addresses that are listed. -/
def listed (s : Subnet) (locals : Finset UInt32) : List UInt32 :=
  ((List.range s.hostCount.toNat).map fun offset => s.first + UInt32.ofNat offset).filter
    (· ∉ locals)

theorem foldl_hosts (offsets : List ℕ) (result : List Bytes) :
    offsets.foldl (fun result offset =>
      let address := s.first + UInt32.ofNat offset
      if address ∈ locals then result else result ++ [inet.ntop address]) result =
    result ++ (((offsets.map fun offset => s.first + UInt32.ofNat offset).filter
      (· ∉ locals)).map inet.ntop) := by
  induction offsets generalizing result with
  | nil => simp
  | cons offset offsets ih =>
    rw [List.foldl_cons, ih]
    dsimp only
    split_ifs with h <;> simp [h]

theorem hosts_of_le (h : s.hostCount ≤ maxHosts) :
    s.hosts inet locals maxHosts = .ok ((s.listed locals).map inet.ntop) := by
  rw [hosts, if_neg (UInt64.not_lt.2 h), foldl_hosts, List.nil_append, listed]

theorem listed_pairwise (s : Subnet) (locals : Finset UInt32) :
    (s.listed locals).Pairwise (· < ·) := by
  refine List.Pairwise.filter _ (List.pairwise_map.2 ?_)
  refine List.pairwise_lt_range.imp_of_mem fun {a b} ha hb hlt => ?_
  rw [List.mem_range, toNat_hostCount] at ha hb
  rw [UInt32.lt_iff_toNat_lt, toNat_address s ha, toNat_address s hb]
  omega

theorem mem_listed_iff {host : UInt32} : host ∈ s.listed locals ↔
    (s.first.toNat ≤ host.toNat ∧
      host.toNat < s.first.toNat + candidates s.prefixLength.1.toNat) ∧ host ∉ locals := by
  rw [listed, List.mem_filter, List.mem_map, decide_eq_true_iff]
  refine and_congr_left' ⟨?_, fun h => ⟨host.toNat - s.first.toNat, ?_, ?_⟩⟩
  · rintro ⟨offset, hoffset, rfl⟩
    rw [List.mem_range, toNat_hostCount] at hoffset
    rw [toNat_address s hoffset]
    omega
  · rw [List.mem_range, toNat_hostCount]
    omega
  · rw [← UInt32.toNat_inj, toNat_address s (by omega)]
    omega

/-- The hosts of the block are listed. -/
theorem mem_listed_iff_isHost {host address : UInt32}
    (h : s.network = address &&& prefixMask s.prefixLength) :
    host ∈ s.listed locals ↔ IsHost s.prefixLength.1.toNat address locals host := by
  have hnetwork : s.network.toNat = networkAddress s.prefixLength.1.toNat address := by
    rw [h, toNat_and_prefixMask]
  rw [mem_listed_iff, toNat_first, hnetwork, candidates]
  constructor
  · rintro ⟨hrange, hlocal⟩
    refine ⟨shares_iff.2 ?_, hlocal, fun hle => ?_⟩
    · split_ifs at hrange <;> omega
    · rw [if_pos hle, if_pos hle] at hrange
      rw [broadcastAddress]
      omega
  · rintro ⟨hshares, hlocal, hbetween⟩
    have hblock := shares_iff.1 hshares
    refine ⟨?_, hlocal⟩
    split_ifs with hle
    · obtain ⟨hne, hne'⟩ := hbetween hle
      rw [broadcastAddress] at hne'
      omega
    · omega

/-- No unsigned operation of the subnet overflows, and no shift is by the width or more. -/
structure NoOverflow (s : Subnet) : Prop where
  shiftAmount : (32 - s.prefixLength.1.toUInt32).toNat = 32 - s.prefixLength.1.toNat
  maskShift : s.prefixLength.1 ≠ 0 → (32 - s.prefixLength.1.toUInt32).toNat < 32
  countShift : (32 - s.prefixLength.1.toUInt32).toNat < 64
  addressCount : s.addressCount.toNat = 2 ^ (32 - s.prefixLength.1.toNat)
  hostCount : s.hostCount.toNat =
    s.addressCount.toNat - if s.prefixLength.1.toNat ≤ 30 then 2 else 0
  twoHosts : s.prefixLength.1.toNat ≤ 30 → 2 ≤ s.addressCount.toNat
  first : s.first.toNat = s.network.toNat + if s.prefixLength.1.toNat ≤ 30 then 1 else 0
  offset : ∀ offset < s.hostCount.toNat, (UInt32.ofNat offset).toNat = offset
  address : ∀ offset < s.hostCount.toNat,
    (s.first + UInt32.ofNat offset).toNat = s.first.toNat + offset

theorem noOverflow (s : Subnet) : s.NoOverflow where
  shiftAmount := toNat_sub_length _
  maskShift h := by
    have hpos : s.prefixLength.1.toNat ≠ 0 := fun hz => h (UInt8.toNat_inj.1 hz)
    rw [toNat_sub_length]
    omega
  countShift := by
    rw [toNat_sub_length]
    omega
  addressCount := toNat_addressCount s
  hostCount := by rw [toNat_hostCount, toNat_addressCount, candidates]
  twoHosts h := by
    have hfour := four_le_blockSize h
    rw [toNat_addressCount]
    omega
  first := toNat_first s
  offset offset h := by
    have hend := first_add_candidates_le s
    rw [toNat_hostCount] at h
    rw [UInt32.toNat_ofNat', Nat.mod_eq_of_lt (by omega)]
  address offset h := toNat_address s (by rwa [← toNat_hostCount])

/-! ### From the text -/

/-- A number that was printed is read back, and nothing is left. -/
theorem fromChars_decimal {n : ℕ} (h : n < 2 ^ 32) : fromChars (decimal n) = some (n, []) := by
  have hdigits : ∀ c ∈ decimal n, decide (48 ≤ c ∧ c ≤ 57) = true :=
    fun c hc => decide_eq_true (isDigit_of_mem_decimal hc)
  have hne : decimal n ≠ [] := by simp [decimal_eq]
  have hfits : ¬(decimal n = [] ∨ 2 ^ 32 ≤ n) := not_or.2 ⟨hne, not_le.2 h⟩
  simp only [fromChars]
  rw [List.takeWhile_eq_self_iff.2 hdigits, List.dropWhile_eq_nil_iff.2 hdigits, foldl_decimal,
    if_neg hfits]

/-- The subnet of an address and a length. -/
theorem ofCidr_eq (h : inet.Lawful) {text : Bytes} {address : UInt32} {length : ℕ}
    (haddress : inet.pton text = some address) (hlen : length ≤ 32) :
    ∃ s, ofCidr inet (text ++ slash :: decimal length) = .ok s ∧
      s.prefixLength.1.toNat = length ∧ s.network = address &&& prefixMask s.prefixLength ∧
      s.cidr = inet.ntop s.network ++ slash :: decimal length := by
  have htext := (h.inverse text address).1 haddress
  have hdotted (c : UInt8) (hc : c ∈ text) : c ≠ slash ∧ c ≠ 0 := by
    rw [htext] at hc
    rcases h.dotted address c hc with rfl | hdigit
    · exact ⟨by decide, by decide⟩
    · constructor
      · rintro rfl
        exact absurd hdigit (by decide)
      · rintro rfl
        exact absurd hdigit (by decide)
  have hslash : slash ∉ text := fun hmem => (hdotted slash hmem).1 rfl
  have hzero : text.takeWhile (· ≠ 0) = text :=
    List.takeWhile_eq_self_iff.2 fun c hc => decide_eq_true (hdotted c hc).2
  have hprefix : parsePrefix (decimal length) (text ++ slash :: decimal length) =
      .ok ⟨UInt8.ofNat length, ofNat_le hlen⟩ := by
    rw [parsePrefix, fromChars_decimal (by omega)]
    dsimp only
    rw [dif_pos ⟨rfl, hlen⟩]
  have hlength : (UInt8.ofNat length).toNat = length := by
    rw [UInt8.toNat_ofNat']
    omega
  have hbehind : (text ++ slash :: decimal length).drop (text.length + 1) = decimal length := by
    rw [← List.drop_drop, List.drop_left' rfl, List.drop_one, List.tail_cons]
  refine ⟨⟨inet.ntop (address &&& prefixMask ⟨UInt8.ofNat length, ofNat_le hlen⟩) ++
    slash :: decimal (UInt8.ofNat length).toNat, address &&& prefixMask _, ⟨_, ofNat_le hlen⟩,
    by rw [UInt32.and_assoc, UInt32.and_self]⟩, ?_, hlength, rfl, by rw [hlength]⟩
  simp only [ofCidr, idxOf?_append_cons hslash, List.take_left' rfl, hbehind, hprefix,
    parseIpv4, hzero, haddress]
  rfl

/-- The subnet of an address and a prefix length refuses to list its hosts exactly if
there are more candidates than allowed. Otherwise it lists the hosts and nothing else,
in ascending order, and nothing overflows on the way. -/
theorem hosts_enumerate_exactly (h : inet.Lawful) {text : Bytes} {address : UInt32} {length : ℕ}
    (haddress : inet.pton text = some address) (hlen : length ≤ 32) (locals : Finset UInt32)
    (maxHosts : UInt64) :
    ∃ s, ofCidr inet (text ++ slash :: decimal length) = .ok s ∧ s.NoOverflow ∧
      (maxHosts.toNat < candidates length ↔ ∃ e, s.hosts inet locals maxHosts = .error e) ∧
      (maxHosts.toNat < candidates length → s.hosts inet locals maxHosts =
        .error (.invalidArgument
          ("IPv4 CIDR exceeds the configured host limit: " ++ exceptionText s.cidr))) ∧
      (candidates length ≤ maxHosts.toNat → ∃ hosts : List UInt32,
        s.hosts inet locals maxHosts = .ok (hosts.map inet.ntop) ∧ hosts.Pairwise (· < ·) ∧
          ∀ host, host ∈ hosts ↔ IsHost length address locals host) := by
  obtain ⟨s, hs, rfl, hnetwork, -⟩ := ofCidr_eq h haddress hlen
  have hover : maxHosts < s.hostCount ↔ maxHosts.toNat < candidates s.prefixLength.1.toNat := by
    rw [UInt64.lt_iff_toNat_lt, toNat_hostCount]
  refine ⟨s, hs, noOverflow s, ⟨fun hlt => ?_, ?_⟩, fun hlt => ?_, fun hle => ?_⟩
  · exact ⟨_, if_pos (hover.2 hlt)⟩
  · rintro ⟨e, he⟩
    by_contra hge
    rw [hosts_of_le (UInt64.not_lt.1 (mt hover.1 hge))] at he
    exact nomatch he
  · exact if_pos (hover.2 hlt)
  · exact ⟨s.listed locals, hosts_of_le (UInt64.not_lt.1 (mt hover.1 (not_lt.2 hle))),
      listed_pairwise s locals, fun host => mem_listed_iff_isHost hnetwork⟩

end

/-! ### Dotted decimal -/

/-- The bytes of an address, the first one first. -/
def octets (address : UInt32) : List ℕ :=
  [address.toNat / 2 ^ 24, address.toNat / 2 ^ 16 % 2 ^ 8, address.toNat / 2 ^ 8 % 2 ^ 8,
    address.toNat % 2 ^ 8]

/-- A number of 8 bits without leading zeros. -/
def parseOctet (text : Bytes) : Option ℕ :=
  match fromChars text with
  | some (value, _) => if value < 2 ^ 8 ∧ decimal value = text then some value else none
  | none => none

def dottedDecimal : Inet where
  pton text :=
    match text.splitOn 46 with
    | [a, b, c, d] => do
      let a ← parseOctet a
      let b ← parseOctet b
      let c ← parseOctet c
      let d ← parseOctet d
      return UInt32.ofNat (a * 2 ^ 24 + b * 2 ^ 16 + c * 2 ^ 8 + d)
    | _ => none
  ntop address := [46].intercalate ((octets address).map decimal)

theorem parseOctet_eq_some {text : Bytes} {n : ℕ} :
    parseOctet text = some n ↔ n < 2 ^ 8 ∧ text = decimal n := by
  constructor
  · unfold parseOctet
    intro h
    split at h
    · split_ifs at h with hvalue
      obtain rfl := Option.some.inj h
      exact ⟨hvalue.1, hvalue.2.symm⟩
    · exact nomatch h
  · rintro ⟨h, rfl⟩
    rw [parseOctet, fromChars_decimal (h.trans (by decide))]
    exact if_pos ⟨h, rfl⟩

theorem octet_lt {address : UInt32} {n : ℕ} (h : n ∈ octets address) : n < 2 ^ 8 := by
  have hlt := address.toNat_lt
  simp only [octets, List.mem_cons, List.not_mem_nil, or_false] at h
  omega

theorem splitOn_dottedDecimal (address : UInt32) :
    (dottedDecimal.ntop address).splitOn 46 = (octets address).map decimal := by
  refine List.splitOn_intercalate 46 (fun part hpart hdot => ?_) (by simp [octets])
  obtain ⟨n, -, rfl⟩ := List.mem_map.1 hpart
  exact absurd (isDigit_of_mem_decimal hdot) (by decide)

theorem pton_of_splitOn {text a b c d : Bytes} (h : text.splitOn 46 = [a, b, c, d]) :
    dottedDecimal.pton text = (do
      let a ← parseOctet a
      let b ← parseOctet b
      let c ← parseOctet c
      let d ← parseOctet d
      return UInt32.ofNat (a * 2 ^ 24 + b * 2 ^ 16 + c * 2 ^ 8 + d)) := by
  simp only [dottedDecimal, h]

theorem octets_ofNat {a b c d : ℕ} (ha : a < 2 ^ 8) (hb : b < 2 ^ 8) (hc : c < 2 ^ 8)
    (hd : d < 2 ^ 8) :
    octets (UInt32.ofNat (a * 2 ^ 24 + b * 2 ^ 16 + c * 2 ^ 8 + d)) = [a, b, c, d] := by
  rw [octets, UInt32.toNat_ofNat', Nat.mod_eq_of_lt (by omega)]
  simp only [List.cons.injEq, and_true]
  omega

theorem dottedDecimal_lawful : dottedDecimal.Lawful where
  inverse text address := by
    constructor
    · intro h
      simp only [dottedDecimal] at h
      split at h
      case h_1 a b c d hsplit =>
        simp only [Option.bind_eq_bind, Option.bind_eq_some_iff, Option.pure_def,
          Option.some.injEq, parseOctet_eq_some] at h
        obtain ⟨a, ⟨ha, rfl⟩, b, ⟨hb, rfl⟩, c, ⟨hc, rfl⟩, d, ⟨hd, rfl⟩, rfl⟩ := h
        have htext : [46].intercalate (text.splitOn 46) = text := List.intercalate_splitOn 46
        rw [← htext, hsplit]
        simp only [dottedDecimal, octets_ofNat ha hb hc hd, List.map_cons, List.map_nil]
      case h_2 => exact nomatch h
    · rintro rfl
      have hparse (n : ℕ) (hn : n ∈ octets address) : parseOctet (decimal n) = some n :=
        parseOctet_eq_some.2 ⟨octet_lt hn, rfl⟩
      simp only [octets, List.forall_mem_cons] at hparse
      obtain ⟨ha, hb, hc, hd, -⟩ := hparse
      rw [pton_of_splitOn (splitOn_dottedDecimal address), ha, hb, hc, hd]
      refine congrArg some (UInt32.toNat_inj.1 ?_)
      have hlt := address.toNat_lt
      rw [UInt32.toNat_ofNat']
      omega
  dotted address c hc := by
    simp only [dottedDecimal, octets, List.map_cons, List.map_nil, List.intercalate_cons_cons,
      List.intercalate_singleton, List.mem_append, List.mem_singleton] at hc
    have hpart {n : ℕ} (h : c ∈ decimal n ∨ c = 46) : c = 46 ∨ 48 ≤ c ∧ c ≤ 57 :=
      h.symm.imp_right isDigit_of_mem_decimal
    rcases hc with hc | hc | hc | hc
    · exact hpart hc
    · exact hpart hc
    · exact hpart hc
    · exact .inr (isDigit_of_mem_decimal hc)

/-- The two hosts of a network of four addresses. -/
theorem hosts_enumerate_exactly_slash30 : ∃ s,
    ofCidr dottedDecimal (ascii "192.168.1.0" ++ slash :: decimal 30) = .ok s ∧
    ∃ hosts : List UInt32, s.hosts dottedDecimal ∅ 4096 = .ok (hosts.map dottedDecimal.ntop) ∧
      hosts.Pairwise (· < ·) ∧ ∀ host, host ∈ hosts ↔ IsHost 30 3232235776 ∅ host := by
  have haddress : dottedDecimal.pton (ascii "192.168.1.0") = some 3232235776 := by decide
  obtain ⟨s, hs, -, -, -, hhosts⟩ := hosts_enumerate_exactly dottedDecimal_lawful haddress
    (by decide : 30 ≤ 32) ∅ 4096
  exact ⟨s, hs, hhosts (by decide)⟩

end Subnet

end Neubau.Common
