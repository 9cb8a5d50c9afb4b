import Kinetix.Foundation.Text
import Mathlib.Tactic

/-!
# Addresses and networks

`std::net::IpAddr`: its reading and its text. A network is the addresses of one family that begin
with the same bits as its own.

## Implementation notes

A reader takes a list of characters and returns what it read with the characters that are left, as
the methods of the standard library's parser move its position.
-/

namespace Kinetix.Net

inductive IpAddr where
  | v4 (bits : BitVec 32)
  | v6 (bits : BitVec 128)
  deriving DecidableEq, Repr

/-! ## Reading -/

/-- `char::to_digit`. -/
def toDigit (radix : Nat) (c : Char) : Option Nat :=
  let digit :=
    if '0' ≤ c ∧ c ≤ '9' then some (c.toNat - '0'.toNat)
    else if 'a' ≤ c ∧ c ≤ 'f' then some (c.toNat - 'a'.toNat + 10)
    else if 'A' ≤ c ∧ c ≤ 'F' then some (c.toNat - 'A'.toNat + 10)
    else none
  digit.filter (· < radix)

/-- The digits at the beginning of a text, and the rest. -/
def readDigits (radix : Nat) : List Char → List Nat × List Char
  | [] => ([], [])
  | c :: text =>
    match toDigit radix c with
    | some digit =>
      let (digits, rest) := readDigits radix text
      (digit :: digits, rest)
    | none => ([], c :: text)

def ofDigits (radix : Nat) (digits : List Nat) : Nat := digits.foldl (fun n d => n * radix + d) 0

/-- `Parser::read_number`: a number below a bound, of at most so many digits. -/
def readNumber (radix maxDigits bound : Nat) (allowZeroPrefix : Bool) (text : List Char) :
    Option (Nat × List Char) :=
  let (digits, rest) := readDigits radix text
  if maxDigits < digits.length then none
  else if digits = [] then none
  else if !allowZeroPrefix ∧ text.head? = some '0' ∧ 1 < digits.length then none
  else if ofDigits radix digits < bound then some (ofDigits radix digits, rest)
  else none

/-- `Parser::read_given_char`. -/
def readGivenChar (c : Char) : List Char → Option (List Char)
  | [] => none
  | d :: text => if c = d then some text else none

/-- `Parser::read_separator`: all items but the first follow a separator. -/
def readSeparator {α : Type} (sep : Char) (index : Nat)
    (inner : List Char → Option (α × List Char)) (text : List Char) : Option (α × List Char) :=
  if 0 < index then (readGivenChar sep text).bind inner else inner text

/-- `Parser::read_ipv4_addr`. -/
def readIpv4Addr (text : List Char) : Option (BitVec 32 × List Char) := do
  let group i := readSeparator '.' i (readNumber 10 3 256 false)
  let (a, text) ← group 0 text
  let (b, text) ← group 1 text
  let (c, text) ← group 2 text
  let (d, text) ← group 3 text
  pure (BitVec.ofNat 32 (ofDigits 256 [a, b, c, d]), text)

/-- `read_groups`, with so many groups left: the groups, whether the last two are an embedded IPv4
address, and the rest. -/
def readGroups : Nat → Nat → List Char → List Nat × Bool × List Char
  | 0, _, text => ([], false, text)
  | left + 1, i, text =>
    -- an embedded address takes two groups
    match if 0 < left then readSeparator ':' i readIpv4Addr text else none with
    | some (addr, rest) => ([addr.toNat / 65536, addr.toNat % 65536], true, rest)
    | none =>
      match readSeparator ':' i (readNumber 16 4 65536 true) text with
      | some (group, rest) =>
        let (groups, ipv4, rest) := readGroups left (i + 1) rest
        (group :: groups, ipv4, rest)
      | none => ([], false, text)

/-- `Parser::read_ipv6_addr`. -/
def readIpv6Addr (text : List Char) : Option (BitVec 128 × List Char) :=
  let ofGroups groups := BitVec.ofNat 128 (ofDigits 65536 groups)
  let (head, headIpv4, text) := readGroups 8 0 text
  if head.length = 8 then some (ofGroups head, text)
  else if headIpv4 then none
  else do
    let text ← readGivenChar ':' text
    let text ← readGivenChar ':' text
    -- the double colon stands for one group of zeros at least
    let (tail, _, text) := readGroups (8 - (head.length + 1)) 0 text
    pure (ofGroups (head ++ List.replicate (8 - head.length - tail.length) 0 ++ tail), text)

/-- `str::parse::<IpAddr>`. -/
def parseIpAddr (s : String) : Option IpAddr :=
  let read :=
    ((readIpv4Addr s.toList).map fun (bits, rest) => (IpAddr.v4 bits, rest)).or
      ((readIpv6Addr s.toList).map fun (bits, rest) => (IpAddr.v6 bits, rest))
  match read with
  | some (ip, []) => some ip
  | some (_, _ :: _) => none
  | none => none

/-- `str::parse::<u8>`: a plus sign may stand before the digits. -/
def parseU8 (s : String) : Option Nat :=
  let digits := match s.toList with
    | '+' :: digits => digits
    | digits => digits
  if digits = [] then none
  else do
    let values ← digits.mapM (toDigit 10)
    if ofDigits 10 values < 256 then some (ofDigits 10 values) else none

/-- `str::split_once`. -/
def splitOnce (sep : Char) (s : String) : Option (String × String) :=
  match s.toList.span (· ≠ sep) with
  | (before, _ :: after) => some (String.ofList before, String.ofList after)
  | (_, []) => none

/-! ## Text -/

/-- The digits of a number in a base, from a width on: its groups, octets or bits. -/
def groupsOf (base count n : Nat) : List Nat :=
  (List.range count).map fun i => n / base ^ (count - 1 - i) % base

def ipv4Text (n : Nat) : String := ".".intercalate ((groupsOf 256 4 n).map toString)

/-- The first of the longest runs of zeros: where it starts, and its length. -/
def longestZeros (segments : List Nat) : Nat × Nat :=
  let scan := segments.zipIdx.foldl (fun (longest, current) (segment, i) =>
    if segment = 0 then
      let current := if current.2 = 0 then (i, 1) else (current.1, current.2 + 1)
      (if longest.2 < current.2 then current else longest, current)
    else (longest, (0, 0))) (((0, 0), (0, 0)) : (Nat × Nat) × (Nat × Nat))
  scan.1

def hexText (n : Nat) : String := String.ofList (Nat.toDigits 16 n)

/-- `Display` of an address. -/
def IpAddr.text : IpAddr → String
  | .v4 bits => ipv4Text bits.toNat
  | .v6 bits =>
    let segments := groupsOf 65536 8 bits.toNat
    let subslice := fun (part : List Nat) => ":".intercalate (part.map hexText)
    if segments.take 6 = [0, 0, 0, 0, 0, 65535] then
      "::ffff:" ++ ipv4Text (bits.toNat % 2 ^ 32)
    else
      let (start, len) := longestZeros segments
      if 1 < len then
        subslice (segments.take start) ++ "::" ++ subslice (segments.drop (start + len))
      else subslice segments

example : parseIpAddr "10.0.0.1" = some (.v4 0x0a000001) := by decide +kernel
example : (parseIpAddr "2001:db8::10.0.0.1").map IpAddr.text = some "2001:db8::a00:1" := by
  decide +kernel

theorem toList_toString (n : Nat) : (toString n).toList = Nat.toDigits 10 n := by
  rw [Nat.toString_eq_repr, Nat.repr_eq_ofList_toDigits, String.toList_ofList]

theorem toString_inj {m n : Nat} (h : toString m = toString n) : m = n := by
  have hdigits := congrArg String.toList h
  rw [toList_toString, toList_toString] at hdigits
  rw [← @Nat.ofDigitChars_ten_toDigits m, hdigits, Nat.ofDigitChars_ten_toDigits]

theorem groupsOf_succ (base count n : Nat) :
    groupsOf base (count + 1) n = groupsOf base count (n / base) ++ [n % base] := by
  rw [groupsOf, List.range_succ, List.map_append]
  congr 1
  · refine List.map_congr_left fun i hi => ?_
    have hpow : count + 1 - 1 - i = (count - 1 - i) + 1 := by
      have := List.mem_range.mp hi
      omega
    rw [hpow, Nat.pow_succ', Nat.div_div_eq_div_mul]
  · simp

/-- A number below the bound of its groups is told by them. -/
theorem groupsOf_inj {base count m n : Nat} (hm : m < base ^ count) (hn : n < base ^ count)
    (h : groupsOf base count m = groupsOf base count n) : m = n := by
  induction count generalizing m n with
  | zero =>
    rw [Nat.pow_zero] at hm hn
    omega
  | succ count ih =>
    rw [groupsOf_succ, groupsOf_succ] at h
    obtain ⟨hhigh, hlow⟩ := List.append_inj' h rfl
    rw [Nat.pow_succ] at hm hn
    have hdiv := ih (Nat.div_lt_of_lt_mul (Nat.mul_comm _ base ▸ hm))
      (Nat.div_lt_of_lt_mul (Nat.mul_comm _ base ▸ hn)) hhigh
    calc m = base * (m / base) + m % base := (Nat.div_add_mod m base).symm
      _ = base * (n / base) + n % base := by rw [hdiv, List.singleton_inj.mp hlow]
      _ = n := Nat.div_add_mod n base

/-- Different addresses of the first family have different texts. -/
theorem ipv4Text_inj {m n : Nat} (hm : m < 2 ^ 32) (hn : n < 2 ^ 32)
    (h : ipv4Text m = ipv4Text n) : m = n := by
  have hdot : ∀ n, ∀ s ∈ (groupsOf 256 4 n).map toString, '.' ∉ s.toList := by
    intro n s hs hmem
    obtain ⟨group, -, rfl⟩ := List.mem_map.mp hs
    rw [toList_toString] at hmem
    exact absurd (Nat.isDigit_of_mem_toDigits (by decide) (by decide) hmem) (by decide)
  have hgroups : groupsOf 256 4 m = groupsOf 256 4 n :=
    List.map_injective_iff.mpr (fun _ _ => toString_inj)
      (Text.intercalate_inj (hdot m) (hdot n) (by simp [groupsOf]) (by simp [groupsOf]) h)
  exact groupsOf_inj (lt_of_lt_of_eq hm (by norm_num)) (lt_of_lt_of_eq hn (by norm_num)) hgroups

/-! ## Networks -/

/-- An address and the number of its leading bits that count. -/
inductive Network where
  | v4 (bits : BitVec 32) (length : Nat) (h : length ≤ 32)
  | v6 (bits : BitVec 128) (length : Nat) (h : length ≤ 128)

/-- Two words agree on their leading bits. -/
def SameLeading {w : Nat} (length : Nat) (x y : BitVec w) : Prop :=
  ∀ k < length, x.getMsbD k = y.getMsbD k

/-- An address lies in a network. -/
def Network.Contains : Network → IpAddr → Prop
  | .v4 bits length _, .v4 ip => SameLeading length bits ip
  | .v6 bits length _, .v6 ip => SameLeading length bits ip
  | .v4 _ _ _, .v6 _ => False
  | .v6 _ _ _, .v4 _ => False

/-- The network of one address. -/
def Network.single : IpAddr → Network
  | .v4 bits => .v4 bits 32 (Nat.le_refl _)
  | .v6 bits => .v6 bits 128 (Nat.le_refl _)

/-- The network of the first bits of an address, if it has so many. -/
def Network.ofPrefix : IpAddr → Nat → Option Network
  | .v4 bits, length => if h : length ≤ 32 then some (.v4 bits length h) else none
  | .v6 bits, length => if h : length ≤ 128 then some (.v6 bits length h) else none

theorem sameLeading_width {w : Nat} {x y : BitVec w} : SameLeading w x y ↔ x = y := by
  constructor
  · exact BitVec.eq_of_getMsbD_eq
  · rintro rfl k _
    rfl

theorem Network.single_contains {a ip : IpAddr} : (Network.single a).Contains ip ↔ a = ip := by
  cases a <;> cases ip <;> simp [single, Contains, sameLeading_width]

/-- The mask of `cidr_contains`. -/
def mask (w length : Nat) : BitVec w :=
  if length = 0 then 0 else BitVec.allOnes w <<< (w - length)

theorem getMsbD_mask {w length : Nat} (h : length ≤ w) (k : Nat) :
    (mask w length).getMsbD k = decide (k < length) := by
  rw [mask]
  split
  · rename_i hzero
    simp [hzero]
  · rw [BitVec.getMsbD_shiftLeft, BitVec.getMsbD_allOnes, decide_eq_decide]
    omega

/-- Under the mask only the leading bits are compared. -/
theorem and_mask_eq_iff {w length : Nat} (h : length ≤ w) (x y : BitVec w) :
    x &&& mask w length = y &&& mask w length ↔ SameLeading length x y := by
  constructor
  · intro heq k hk
    have hbit := congrArg (BitVec.getMsbD · k) heq
    simpa [getMsbD_mask h, hk] using hbit
  · intro hsame
    apply BitVec.eq_of_getMsbD_eq
    intro k _
    rw [BitVec.getMsbD_and, BitVec.getMsbD_and, getMsbD_mask h]
    by_cases hk : k < length
    · rw [hsame k hk]
    · simp [hk]

/-- `cidr_contains`. -/
def cidrContains (net : IpAddr) (length : Nat) (ip : IpAddr) : Bool :=
  match net, ip with
  | .v4 n, .v4 i =>
    if 32 < length then false else n &&& mask 32 length == i &&& mask 32 length
  | .v6 n, .v6 i =>
    if 128 < length then false else n &&& mask 128 length == i &&& mask 128 length
  | .v4 _, .v6 _ => false
  | .v6 _, .v4 _ => false

/-- The masks compare an address with a network. -/
theorem cidrContains_iff {net ip : IpAddr} {length : Nat} :
    cidrContains net length ip = true ↔
      ∃ n, Network.ofPrefix net length = some n ∧ n.Contains ip := by
  cases net with
  | v4 bits =>
    by_cases h : length ≤ 32
    · cases ip <;> simp [cidrContains, Network.ofPrefix, Network.Contains, h, and_mask_eq_iff]
    · cases ip <;> simp [cidrContains, Network.ofPrefix, h]
  | v6 bits =>
    by_cases h : length ≤ 128
    · cases ip <;> simp [cidrContains, Network.ofPrefix, Network.Contains, h, and_mask_eq_iff]
    · cases ip <;> simp [cidrContains, Network.ofPrefix, h]

end Kinetix.Net
