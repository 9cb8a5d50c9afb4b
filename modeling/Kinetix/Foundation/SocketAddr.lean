import Kinetix.Foundation.IpAddr

/-!
# Socket addresses

`std::net::SocketAddr`, its order and its text. Different addresses have different texts, in spite
of the zeros that a version 6 text leaves out.

## Implementation notes

The scope and the flow of a version 6 address are left out.
-/

namespace Kinetix.Net

structure SocketAddr where
  ip : IpAddr
  port : Nat
  deriving DecidableEq, Repr

/-- `Ord` of an address: the first family comes first. -/
def IpAddr.key : IpAddr → Nat × Nat
  | .v4 bits => (0, bits.toNat)
  | .v6 bits => (1, bits.toNat)

/-- `Ord` of a socket address. -/
def SocketAddr.le (a b : SocketAddr) : Bool :=
  toLex (toLex a.ip.key, a.port) ≤ toLex (toLex b.ip.key, b.port)

/-- `Display` of a socket address. -/
def SocketAddr.text (a : SocketAddr) : String :=
  match a.ip with
  | .v4 _ => a.ip.text ++ ":" ++ toString a.port
  | .v6 _ => "[" ++ a.ip.text ++ "]:" ++ toString a.port

example : (SocketAddr.mk (.v6 1) 443).text = "[::1]:443" := by decide +kernel

/-! ## Hexadecimal groups -/

variable {c : Char} {segments : List Nat} {r : Nat × Nat}

theorem mem_toDigits {n : Nat} (h : c ∈ Nat.toDigits 16 n) : ∃ d < 16, c = Nat.digitChar d := by
  induction n using Nat.strong_induction_on with
  | h n ih =>
    rw [Nat.toDigits_eq_if (by decide)] at h
    split_ifs at h with hn
    · exact ⟨n, hn, List.mem_singleton.mp h⟩
    · rw [List.mem_append, List.mem_singleton] at h
      obtain h | h := h
      · exact ih (n / 16) (by omega) h
      · exact ⟨n % 16, by omega, h⟩

theorem toDigits_inj {m n : Nat} (h : Nat.toDigits 16 m = Nat.toDigits 16 n) : m = n := by
  have hchar : ∀ a < 16, ∀ b < 16, Nat.digitChar a = Nat.digitChar b → a = b := by decide
  induction m using Nat.strong_induction_on generalizing n with
  | h m ih =>
    rw [Nat.toDigits_eq_if (by decide), Nat.toDigits_eq_if (n := n) (by decide)] at h
    split_ifs at h with hm hn hn
    · exact hchar m hm n hn (List.singleton_inj.mp h)
    · simp [List.singleton_eq_append_iff] at h
    · simp [List.append_eq_singleton_iff] at h
    · obtain ⟨hhigh, hlow⟩ := List.append_inj' h rfl
      have hdiv := ih (m / 16) (by omega) hhigh
      have hmod := hchar (m % 16) (by omega) (n % 16) (by omega) (List.singleton_inj.mp hlow)
      omega

theorem hexText_inj {m n : Nat} (h : hexText m = hexText n) : m = n :=
  toDigits_inj (String.ofList_injective h)

/-! ## The zeros that are left out -/

/-- A run of zeros: where it starts, and its length. -/
def ZerosAt (segments : List Nat) (r : Nat × Nat) : Prop :=
  ∀ i, r.1 ≤ i → i < r.1 + r.2 → segments[i]? = some 0

theorem ZerosAt.snoc (h : ZerosAt segments r) (segment : Nat) :
    ZerosAt (segments ++ [segment]) r := by
  intro i hlow hhigh
  have hi := h i hlow hhigh
  rw [List.getElem?_append_left (List.getElem?_eq_some_iff.mp hi).1, hi]

/-- A run that ends where the segments end is one longer with a zero behind it. -/
theorem ZerosAt.grow (h : ZerosAt segments r) (hend : r.1 + r.2 = segments.length) :
    ZerosAt (segments ++ [0]) (r.1, r.2 + 1) := by
  intro i hlow hhigh
  by_cases hi : i < r.1 + r.2
  · exact h.snoc 0 i hlow hi
  · have heq : i = segments.length := by
      simp only at hhigh
      omega
    simp [heq]

/-- The longest run and the current one, after the first segments. -/
theorem zerosAt_scan (segments : List Nat) :
    ∃ longest current, segments.zipIdx.foldl (fun (longest, current) (segment, i) =>
      if segment = 0 then
        let current := if current.2 = 0 then (i, 1) else (current.1, current.2 + 1)
        (if longest.2 < current.2 then current else longest, current)
      else (longest, (0, 0))) (((0, 0), (0, 0)) : (Nat × Nat) × (Nat × Nat)) = (longest, current) ∧
      ZerosAt segments longest ∧ ZerosAt segments current ∧
      (current.2 ≠ 0 → current.1 + current.2 = segments.length) := by
  induction segments using List.reverseRecOn with
  | nil => exact ⟨(0, 0), (0, 0), rfl, by simp [ZerosAt], by simp [ZerosAt], by simp⟩
  | append_singleton segments segment ih =>
    obtain ⟨longest, current, hfold, hlongest, hcurrent, hend⟩ := ih
    rw [List.zipIdx_append, List.foldl_append, hfold, Nat.zero_add, List.zipIdx_singleton,
      List.foldl_cons, List.foldl_nil]
    by_cases hzero : segment = 0
    · subst hzero
      have hgrown : ∃ next, (if current.2 = 0 then (segments.length, 1)
          else (current.1, current.2 + 1)) = next ∧ ZerosAt (segments ++ [0]) next ∧
          next.1 + next.2 = (segments ++ [0]).length := by
        split_ifs with hnew
        · refine ⟨_, rfl, ZerosAt.grow (r := (segments.length, 0)) ?_ rfl, by simp⟩
          intro i hlow hhigh
          simp only at hlow hhigh
          omega
        · have hlast := hend hnew
          refine ⟨_, rfl, hcurrent.grow hlast, ?_⟩
          simp only [List.length_append, List.length_singleton]
          omega
      obtain ⟨next, hnext, hzeros, hlength⟩ := hgrown
      refine ⟨if longest.2 < next.2 then next else longest, next, ?_, ?_, hzeros,
        fun _ => hlength⟩
      · simp only [if_pos, hnext]
      · split_ifs
        · exact hzeros
        · exact hlongest.snoc 0
    · refine ⟨longest, (0, 0), by simp only [if_neg hzero], hlongest.snoc segment, ?_, by simp⟩
      intro i _ hhigh
      exact absurd hhigh (Nat.not_lt_zero i)

theorem zerosAt_longestZeros (segments : List Nat) : ZerosAt segments (longestZeros segments) := by
  obtain ⟨longest, current, hscan, hlongest, -⟩ := zerosAt_scan segments
  rw [longestZeros, hscan]
  exact hlongest

/-- What is left out can be put back. -/
theorem ZerosAt.restore (h : ZerosAt segments r) (hr : 0 < r.2) :
    segments.take r.1 ++ List.replicate r.2 0 ++ segments.drop (r.1 + r.2) =
      segments ∧ r.1 + r.2 ≤ segments.length := by
  have hlast := h (r.1 + r.2 - 1) (by omega) (by omega)
  have hle : r.1 + r.2 ≤ segments.length := by
    have hlt := (List.getElem?_eq_some_iff.mp hlast).1
    omega
  refine ⟨?_, hle⟩
  have hrun : List.replicate r.2 0 = (segments.drop r.1).take r.2 := by
    symm
    refine List.eq_replicate_iff.mpr ⟨?_, fun b hb => ?_⟩
    · rw [List.length_take, List.length_drop]
      omega
    · obtain ⟨i, hi, rfl⟩ := List.mem_iff_getElem.mp hb
      rw [List.length_take] at hi
      have hzero := h (r.1 + i) (by omega) (by omega)
      rw [List.getElem_take, List.getElem_drop]
      exact (List.getElem?_eq_some_iff.mp hzero).2
  rw [hrun, ← List.drop_drop, List.append_assoc, List.take_append_drop, List.take_append_drop]

/-! ## The text of a version 6 address -/

/-- The fields between the colons of a part. -/
def hexFields (part : List Nat) : List String := if part = [] then [""] else part.map hexText

/-- The fields between the colons of a text; the one between two colons is empty. -/
def ipv6Fields (segments : List Nat) : List String :=
  let r := longestZeros segments
  if 1 < r.2 then hexFields (segments.take r.1) ++ "" :: hexFields (segments.drop (r.1 + r.2))
  else hexFields segments

theorem hexFields_ne_nil (part : List Nat) : hexFields part ≠ [] := by
  rw [hexFields]
  split_ifs with h
  · exact List.cons_ne_nil _ _
  · simpa using h

theorem hexText_ne_empty (n : Nat) : hexText n ≠ "" := by
  intro h
  have hnil := congrArg String.toList h
  rw [hexText, String.toList_ofList] at hnil
  exact Nat.toDigits_ne_nil hnil

theorem empty_notMem_hexFields {part : List Nat} (h : part ≠ []) : "" ∉ hexFields part := by
  rw [hexFields, if_neg h]
  rintro hmem
  obtain ⟨n, -, hn⟩ := List.mem_map.mp hmem
  exact hexText_ne_empty n hn

theorem hexFields_inj {part part' : List Nat} (h : hexFields part = hexFields part') :
    part = part' := by
  by_cases hpart : part = []
  · by_contra hne
    have hpart' : part' ≠ [] := fun h' => hne (hpart.trans h'.symm)
    refine empty_notMem_hexFields hpart' (h ▸ ?_)
    simp [hexFields, hpart]
  · by_cases hpart' : part' = []
    · refine absurd (h ▸ ?_) (empty_notMem_hexFields hpart)
      simp [hexFields, hpart']
    · rw [hexFields, hexFields, if_neg hpart, if_neg hpart'] at h
      exact List.map_injective_iff.mpr (fun _ _ => hexText_inj) h

/-- The empty field shows where zeros are left out. -/
theorem hexFields_append_inj {head head' tail tail' : List Nat}
    (h : hexFields head ++ "" :: hexFields tail = hexFields head' ++ "" :: hexFields tail') :
    head = head' ∧ tail = tail' := by
  have hfirst : ∀ {head head' : List Nat} {fields fields' : List String}, head = [] → head' ≠ [] →
      hexFields head ++ fields ≠ hexFields head' ++ fields' := by
    intro head head' fields fields' hhead hhead' heq
    obtain ⟨n, rest, rfl⟩ := List.exists_cons_of_ne_nil hhead'
    simp only [hexFields, hhead, if_true, if_neg hhead', List.map_cons, List.cons_append,
      List.cons.injEq] at heq
    exact hexText_ne_empty n heq.1.symm
  by_cases hhead : head = []
  · by_cases hhead' : head' = []
    · subst hhead
      subst hhead'
      exact ⟨rfl, hexFields_inj (List.cons.inj (List.append_cancel_left h)).2⟩
    · exact absurd h (hfirst hhead hhead')
  · by_cases hhead' : head' = []
    · exact absurd h.symm (hfirst hhead' hhead)
    · obtain ⟨hleft, hright⟩ := Text.append_cons_inj (empty_notMem_hexFields hhead)
        (empty_notMem_hexFields hhead') h
      exact ⟨hexFields_inj hleft, hexFields_inj hright⟩

theorem ipv6Fields_inj {segments segments' : List Nat} (hne : segments ≠ [])
    (hlength : segments.length = segments'.length)
    (h : ipv6Fields segments = ipv6Fields segments') : segments = segments' := by
  have hne' : segments' ≠ [] := by
    rw [← List.length_pos_iff, ← hlength]
    exact List.length_pos_iff.mpr hne
  have hzeros := (zerosAt_longestZeros segments).restore
  have hzeros' := (zerosAt_longestZeros segments').restore
  simp only [ipv6Fields] at h
  split_ifs at h with hlong hlong' hlong'
  · obtain ⟨hback, hle⟩ := hzeros (by omega)
    obtain ⟨hback', hle'⟩ := hzeros' (by omega)
    obtain ⟨htake, hdrop⟩ := hexFields_append_inj h
    have htakeLength := congrArg List.length htake
    have hdropLength := congrArg List.length hdrop
    simp only [List.length_take, List.length_drop] at htakeLength hdropLength
    rw [← hback, ← hback', htake, hdrop]
    congr 3
    omega
  · exact absurd (h ▸ by simp) (empty_notMem_hexFields hne')
  · exact absurd (h ▸ by simp) (empty_notMem_hexFields hne)
  · exact hexFields_inj h

/-- The segments of a version 6 address. -/
def segmentsOf (bits : BitVec 128) : List Nat := groupsOf 65536 8 bits.toNat

theorem segmentsOf_inj {x y : BitVec 128} (h : segmentsOf x = segmentsOf y) : x = y :=
  BitVec.eq_of_toNat_eq (groupsOf_inj (lt_of_lt_of_eq x.isLt (by norm_num))
    (lt_of_lt_of_eq y.isLt (by norm_num)) h)

/-- An address of the first family in one of the second. -/
def IsMapped (bits : BitVec 128) : Prop := (segmentsOf bits).take 6 = [0, 0, 0, 0, 0, 65535]

theorem text_of_mapped {bits : BitVec 128} (h : IsMapped bits) :
    (IpAddr.v6 bits).text = "::ffff:" ++ ipv4Text (bits.toNat % 2 ^ 32) :=
  if_pos h

theorem text_of_not_mapped {bits : BitVec 128} (h : ¬ IsMapped bits) :
    (IpAddr.v6 bits).text = ":".intercalate (ipv6Fields (segmentsOf bits)) := by
  have hslice : ∀ part : List Nat, ":".intercalate (part.map hexText) =
      ":".intercalate (hexFields part) := by
    intro part
    rw [hexFields]
    split_ifs with hpart
    · simp [hpart]
    · rfl
  have htext : (IpAddr.v6 bits).text =
      if 1 < (longestZeros (segmentsOf bits)).2 then
        ":".intercalate (((segmentsOf bits).take (longestZeros (segmentsOf bits)).1).map hexText) ++
          "::" ++ ":".intercalate (((segmentsOf bits).drop ((longestZeros (segmentsOf bits)).1 +
            (longestZeros (segmentsOf bits)).2)).map hexText)
      else ":".intercalate ((segmentsOf bits).map hexText) := if_neg h
  have hcolons : "::" = ":" ++ ":" := rfl
  rw [htext, ipv6Fields]
  split_ifs with hlong
  · rw [hslice, hslice, String.intercalate_append_of_ne_nil (hexFields_ne_nil _)
      (List.cons_ne_nil _ _), String.intercalate_cons_of_ne_nil (hexFields_ne_nil _), hcolons]
    simp only [String.append_assoc, String.empty_append]
  · exact hslice _

theorem mem_toString {n : Nat} (h : c ∈ (toString n).toList) : c.isDigit = true := by
  rw [toList_toString] at h
  exact Nat.isDigit_of_mem_toDigits (by decide) (by decide) h

theorem mem_ipv4Text {n : Nat} (h : c ∈ (ipv4Text n).toList) : c = '.' ∨ c.isDigit = true := by
  refine (Text.mem_intercalate (c := '.') h).imp id ?_
  rintro ⟨s, hs, hc⟩
  obtain ⟨group, -, rfl⟩ := List.mem_map.mp hs
  exact mem_toString hc

theorem mem_ipv6Fields {s : String} (hs : s ∈ ipv6Fields segments) (hc : c ∈ s.toList) :
    ∃ d < 16, c = Nat.digitChar d := by
  have hpart : ∀ part : List Nat, s ∈ hexFields part → ∃ d < 16, c = Nat.digitChar d := by
    intro part hmem
    rw [hexFields] at hmem
    split_ifs at hmem
    · rw [List.mem_singleton.mp hmem] at hc
      cases hc
    · obtain ⟨n, -, rfl⟩ := List.mem_map.mp hmem
      rw [hexText, String.toList_ofList] at hc
      exact mem_toDigits hc
  simp only [ipv6Fields] at hs
  split_ifs at hs
  · rw [List.mem_append, List.mem_cons] at hs
    obtain hs | rfl | hs := hs
    · exact hpart _ hs
    · cases hc
    · exact hpart _ hs
  · exact hpart _ hs

/-- The characters of an address. -/
theorem mem_text {ip : IpAddr} (h : c ∈ ip.text.toList) :
    c = '.' ∨ c = ':' ∨ c.isDigit = true ∨ ∃ d < 16, c = Nat.digitChar d := by
  cases ip with
  | v4 bits =>
    obtain hdot | hdigit := mem_ipv4Text h
    · exact .inl hdot
    · exact .inr (.inr (.inl hdigit))
  | v6 bits =>
    by_cases hm : IsMapped bits
    · rw [text_of_mapped hm, String.toList_append, List.mem_append] at h
      obtain h | h := h
      · have hsmall : ("::ffff:".toList.all fun c => c = ':' ∨ c = Nat.digitChar 15) = true := by
          decide
        obtain hc | hc := of_decide_eq_true (List.all_eq_true.mp hsmall c h)
        · exact .inr (.inl hc)
        · exact .inr (.inr (.inr ⟨15, by decide, hc⟩))
      · obtain hdot | hdigit := mem_ipv4Text h
        · exact .inl hdot
        · exact .inr (.inr (.inl hdigit))
    · rw [text_of_not_mapped hm] at h
      obtain hcolon | ⟨s, hs, hc⟩ := Text.mem_intercalate (c := ':') h
      · exact .inr (.inl hcolon)
      · exact .inr (.inr (.inr (mem_ipv6Fields hs hc)))

/-- A character that is not in the text of an address. -/
theorem notMem_text (hdot : c ≠ '.') (hcolon : c ≠ ':') (hdigit : c.isDigit = false)
    (hhex : ∀ d < 16, c ≠ Nat.digitChar d) (ip : IpAddr) : c ∉ ip.text.toList := by
  intro h
  obtain hc | hc | hc | ⟨d, hd, hc⟩ := mem_text h
  · exact hdot hc
  · exact hcolon hc
  · rw [hdigit] at hc
    cases hc
  · exact hhex d hd hc

theorem ipv6Text_inj {x y : BitVec 128} (h : (IpAddr.v6 x).text = (IpAddr.v6 y).text) : x = y := by
  have hdot : ∀ {bits}, ¬ IsMapped bits → '.' ∉ (IpAddr.v6 bits).text.toList := by
    intro bits hm hmem
    rw [text_of_not_mapped hm] at hmem
    obtain hcolon | ⟨s, hs, hc⟩ := Text.mem_intercalate (c := ':') hmem
    · exact absurd hcolon (by decide)
    · obtain ⟨d, hd, hc⟩ := mem_ipv6Fields hs hc
      exact absurd hc ((by decide : ∀ d < 16, '.' ≠ Nat.digitChar d) d hd)
  have hmapped : ∀ {bits}, IsMapped bits → '.' ∈ (IpAddr.v6 bits).text.toList := by
    intro bits hm
    rw [text_of_mapped hm, ipv4Text]
    simp [groupsOf, List.range_succ]
  have hfields : ∀ bits, ∀ s ∈ ipv6Fields (segmentsOf bits), ':' ∉ s.toList := by
    intro bits s hs hc
    obtain ⟨d, hd, hc⟩ := mem_ipv6Fields hs hc
    exact absurd hc ((by decide : ∀ d < 16, ':' ≠ Nat.digitChar d) d hd)
  have hne : ∀ bits, ipv6Fields (segmentsOf bits) ≠ [] := by
    intro bits
    rw [ipv6Fields]
    split_ifs
    · simp
    · exact hexFields_ne_nil _
  by_cases hx : IsMapped x
  · by_cases hy : IsMapped y
    · rw [text_of_mapped hx, text_of_mapped hy, String.append_right_inj] at h
      have hlow := ipv4Text_inj (Nat.mod_lt _ (by decide)) (Nat.mod_lt _ (by decide)) h
      have hxlt := x.isLt
      have hylt := y.isLt
      apply BitVec.eq_of_toNat_eq
      simp only [IsMapped, segmentsOf, groupsOf, List.range_succ, List.range_zero, List.nil_append,
        List.cons_append, List.map_cons, List.map_nil, List.take_succ_cons, List.take_zero,
        List.cons.injEq] at hx hy
      omega
    · exact absurd (h ▸ hmapped hx) (hdot hy)
  · by_cases hy : IsMapped y
    · exact absurd (h ▸ hmapped hy) (hdot hx)
    · rw [text_of_not_mapped hx, text_of_not_mapped hy] at h
      have heq := Text.intercalate_inj (hfields x) (hfields y) (hne x) (hne y) h
      exact segmentsOf_inj (ipv6Fields_inj (by simp [segmentsOf, groupsOf])
        (by simp [segmentsOf, groupsOf]) heq)

/-! ## The text of a socket address -/

theorem toList_v4 (bits : BitVec 32) (port : Nat) : (SocketAddr.mk (.v4 bits) port).text.toList =
    (ipv4Text bits.toNat).toList ++ ':' :: (toString port).toList := by
  have hcolon : ":".toList = [':'] := rfl
  simp [SocketAddr.text, IpAddr.text, hcolon]

theorem toList_v6 (bits : BitVec 128) (port : Nat) : (SocketAddr.mk (.v6 bits) port).text.toList =
    '[' :: ((IpAddr.v6 bits).text.toList ++ ']' :: ':' :: (toString port).toList) := by
  have hopen : "[".toList = ['['] := rfl
  have hclose : "]:".toList = [']', ':'] := rfl
  simp [SocketAddr.text, hopen, hclose]

/-- A character that is not in the text of a socket address. -/
theorem notMem_socketText (hchar : ∀ d ∈ ['.', ':', '[', ']'], c ≠ d) (hdigit : c.isDigit = false)
    (hhex : ∀ d < 16, c ≠ Nat.digitChar d) (a : SocketAddr) : c ∉ a.text.toList := by
  have hip := notMem_text (hchar '.' (by decide)) (hchar ':' (by decide)) hdigit hhex a.ip
  have hport : c ∉ (toString a.port).toList := fun h => by
    rw [mem_toString h] at hdigit
    cases hdigit
  obtain ⟨ip, port⟩ := a
  have hcolon := hchar ':' (by decide)
  cases ip with
  | v4 bits =>
    rw [toList_v4, List.mem_append, List.mem_cons]
    rintro (h | h | h)
    · exact hip h
    · exact hcolon h
    · exact hport h
  | v6 bits =>
    rw [toList_v6, List.mem_cons, List.mem_append, List.mem_cons, List.mem_cons]
    rintro (h | h | h | h | h)
    · exact hchar '[' (by decide) h
    · exact hip h
    · exact hchar ']' (by decide) h
    · exact hcolon h
    · exact hport h

theorem SocketAddr.text_inj {a b : SocketAddr} (h : a.text = b.text) : a = b := by
  have hlist := congrArg String.toList h
  have hcolon : ∀ n, ':' ∉ (ipv4Text n).toList := fun n hmem => by
    obtain hc | hc := mem_ipv4Text hmem
    · exact absurd hc (by decide)
    · exact absurd hc (by decide)
  have hopen : ∀ (bits : BitVec 32) port, '[' ∉ (SocketAddr.mk (.v4 bits) port).text.toList := by
    intro bits port hmem
    rw [toList_v4, List.mem_append, List.mem_cons] at hmem
    obtain hc | hc | hc := hmem
    · exact absurd (mem_ipv4Text hc) (by decide)
    · exact absurd hc (by decide)
    · exact absurd (mem_toString hc) (by decide)
  have hbracket : ∀ (bits : BitVec 128) port,
      '[' ∈ (SocketAddr.mk (.v6 bits) port).text.toList := by
    intro bits port
    rw [toList_v6]
    exact List.mem_cons_self
  have hclose : ∀ bits, ']' ∉ (IpAddr.v6 bits).text.toList := fun bits =>
    notMem_text (by decide) (by decide) (by decide) (by decide) _
  obtain ⟨ip, port⟩ := a
  obtain ⟨ip', port'⟩ := b
  cases ip with
  | v4 bits =>
    cases ip' with
    | v4 bits' =>
      rw [toList_v4, toList_v4] at hlist
      obtain ⟨hip, hport⟩ := Text.append_cons_inj (hcolon _) (hcolon _) hlist
      have hbits := ipv4Text_inj bits.isLt bits'.isLt (String.toList_inj.mp hip)
      rw [BitVec.eq_of_toNat_eq hbits, toString_inj (String.toList_inj.mp hport)]
    | v6 bits' =>
      have hmem := hbracket bits' port'
      rw [← hlist] at hmem
      exact absurd hmem (hopen bits port)
  | v6 bits =>
    cases ip' with
    | v4 bits' =>
      have hmem := hbracket bits port
      rw [hlist] at hmem
      exact absurd hmem (hopen bits' port')
    | v6 bits' =>
      rw [toList_v6, toList_v6] at hlist
      obtain ⟨hip, hrest⟩ := Text.append_cons_inj (hclose _) (hclose _) (List.cons.inj hlist).2
      rw [ipv6Text_inj (String.toList_inj.mp hip),
        toString_inj (String.toList_inj.mp (List.cons.inj hrest).2)]

end Kinetix.Net
