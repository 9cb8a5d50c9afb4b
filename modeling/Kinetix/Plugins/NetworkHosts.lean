import Kinetix.Enrollment.Handlers
import Kinetix.Foundation.AsciiCase
import Kinetix.Foundation.IpAddr

/-!
# The hosts of a plugin

`validate_network_host` and `host_matches` of `manifest.rs`, and the check that `host_http::send`
makes of the host of a request. A pattern `*.s` is declared for the names of one label before `.s`.

## Implementation notes

The white space around a pattern or a host is no part of it: both functions trim it away.
-/

namespace Kinetix.Plugins.NetworkHosts
open Checks Text
open Enrollment (hostMatches)

/-- `validate_network_host`. -/
def validateNetworkHost (host : String) : Except String Unit := do
  let host := trim host
  refuseIf (host = "") "network host must not be empty"
  refuseIf (host = "*" ∨ contains host "*" ∧ ¬ startsWith host "*.")
    ("network host '" ++ host ++ "': only a single leading '*.' wildcard is allowed")
  let base := (stripPrefix host "*.").getD host
  refuseIf (contains base "*")
    ("network host '" ++ host ++ "': only a single leading '*.' wildcard is allowed")
  refuseIf (base = "" ∨ contains base "/" ∨ contains base " ")
    ("network host '" ++ host ++ "' is not a valid hostname")
  refuseIf (Net.parseIpAddr base).isSome
    ("network host '" ++ host ++ "': IP literals are not allowed; declare a hostname")

/-- The check of a destination against the hosts of the plugin. -/
def egressAllowed (networkHosts : List String) (host : String) : Bool :=
  networkHosts.any (hostMatches · host)

/-- A label of a name. -/
def IsLabel (label : String) : Prop := label ≠ "" ∧ '.' ∉ label.toList

instance (label : String) : Decidable (IsLabel label) := inferInstanceAs (Decidable (_ ∧ _))

/-- A host that a pattern declares. -/
inductive Declares (pattern host : String) : Prop
  | wildcard {suffix label : String} (strip : stripPrefix pattern "*." = some suffix)
      (single : IsLabel label) (same : eqIgnoreAsciiCase host (label ++ "." ++ suffix) = true)
  | name (strip : stripPrefix pattern "*." = none) (same : eqIgnoreAsciiCase host pattern = true)

/-- A host of a wildcard but for the dot behind the label. -/
def Undotted (pattern host : String) : Prop :=
  ∃ suffix, stripPrefix pattern "*." = some suffix ∧
    ∃ label, IsLabel label ∧ eqIgnoreAsciiCase host (label ++ suffix) = true

/-! ## Patterns -/

theorem dot_mem_toAsciiLowercase {s : String} :
    '.' ∈ (toAsciiLowercase s).toList ↔ '.' ∈ s.toList :=
  mem_toAsciiLowercase (by decide) (by decide)

theorem isLabel_toAsciiLowercase {label : String} (h : IsLabel label) :
    IsLabel (toAsciiLowercase label) := by
  obtain ⟨hne, hdot⟩ := h
  refine ⟨fun heq => hne (toAsciiLowercase_eq_empty.mp heq), fun hmem => hdot ?_⟩
  exact dot_mem_toAsciiLowercase.mp hmem

/-- A wildcard is one in either case. -/
theorem stripPrefix_toAsciiLowercase (pattern : String) :
    stripPrefix (toAsciiLowercase pattern) "*." =
      (stripPrefix pattern "*.").map toAsciiLowercase := by
  refine Option.ext fun rest => ?_
  rw [stripPrefix_eq_some, Option.map_eq_some_iff]
  simp only [stripPrefix_eq_some]
  have hstar : "*.".toList = ['*', '.'] := rfl
  have hwild : toAsciiLowercase "*." = "*." := by
    rw [← String.toList_inj, toList_toAsciiLowercase]
    rfl
  constructor
  · intro h
    have hlist := congrArg String.toList h
    rw [toList_toAsciiLowercase, String.toList_append, hstar,
      List.map_eq_append_iff] at hlist
    obtain ⟨start, tail, hsplit, hstart, htail⟩ := hlist
    obtain ⟨c, start, rfl, hc, hstart⟩ := List.map_eq_cons_iff.mp hstart
    obtain ⟨d, start, rfl, hd, hstart⟩ := List.map_eq_cons_iff.mp hstart
    rw [(toLower_eq_iff (by decide) (by decide)).mp hc,
      (toLower_eq_iff (by decide) (by decide)).mp hd, List.map_eq_nil_iff.mp hstart] at hsplit
    refine ⟨String.ofList tail, ?_, ?_⟩
    · rw [← String.toList_inj, hsplit, String.toList_append, hstar, String.toList_ofList]
    · rw [← String.toList_inj, toList_toAsciiLowercase, String.toList_ofList, htail]
  · rintro ⟨suffix, rfl, rfl⟩
    rw [toAsciiLowercase_append, hwild]

/-- What `host_matches` makes of a text before the name of a wildcard. -/
theorem label_iff {s : String} :
    (let label := (stripSuffix s '.').getD s; label != "" && !contains label ".") = true ↔
      ∃ label, IsLabel label ∧ (s = label ++ "." ∨ s = label) := by
  have hdot : ".".toList = ['.'] := rfl
  have hisLabel (label : String) :
      (label != "" && !contains label ".") = true ↔ IsLabel label := by
    rw [Bool.and_eq_true, bne_iff_ne, Bool.not_eq_true', ← Bool.not_eq_true,
      contains_char hdot, IsLabel]
  cases h : stripSuffix s '.' with
  | none =>
    rw [Option.getD_none, hisLabel]
    refine ⟨fun hs => ⟨s, hs, .inr rfl⟩, ?_⟩
    rintro ⟨label, hlabel, rfl | rfl⟩
    · have hsome : stripSuffix (label ++ ".") '.' = some label := by
        rw [stripSuffix_eq_some, String.toList_append, hdot]
      rw [hsome] at h
      cases h
    · exact hlabel
  | some start =>
    rw [stripSuffix_eq_some] at h
    rw [Option.getD_some, hisLabel]
    have hs : s = start ++ "." := by
      rw [← String.toList_inj, h, String.toList_append, hdot]
    refine ⟨fun hstart => ⟨start, hstart, .inl hs⟩, ?_⟩
    rintro ⟨label, hlabel, heq | rfl⟩
    · rw [hs] at heq
      rwa [(String.append_left_inj ".").mp heq]
    · exact absurd (h ▸ List.mem_concat_self) hlabel.2

theorem wildcard_iff {suffix host : String} :
    (if suffix.toList.isSuffixOf host.toList then
        let label := String.ofList (host.toList.take (host.length - suffix.length))
        let label := (stripSuffix label '.').getD label
        label != "" && !contains label "."
      else false) = true ↔
      ∃ label, IsLabel label ∧ (host = label ++ "." ++ suffix ∨ host = label ++ suffix) := by
  split
  next h =>
    obtain ⟨front, hfront⟩ := List.isSuffixOf_iff_suffix.mp h
    have htake : host.toList.take (host.length - suffix.length) = front := by
      rw [← hfront, ← String.length_toList, ← String.length_toList, ← hfront, List.length_append,
        Nat.add_sub_cancel, List.take_left]
    have hhost : host = String.ofList front ++ suffix := by
      rw [← String.toList_inj, String.toList_append, String.toList_ofList, hfront]
    rw [htake, label_iff, hhost]
    simp only [String.append_left_inj]
  next h =>
    refine iff_of_false Bool.false_ne_true ?_
    rintro ⟨label, -, rfl | rfl⟩
    · exact h (List.isSuffixOf_iff_suffix.mpr ⟨_, (String.toList_append ..).symm⟩)
    · exact h (List.isSuffixOf_iff_suffix.mpr ⟨_, (String.toList_append ..).symm⟩)

/-- The labels of a host that is compared in lower case are those of the host. -/
theorem exists_label_iff {host : String} {tail : String} :
    (∃ label, IsLabel label ∧ toAsciiLowercase host = label ++ toAsciiLowercase tail) ↔
      ∃ label, IsLabel label ∧ eqIgnoreAsciiCase host (label ++ tail) = true := by
  simp only [eqIgnoreAsciiCase_iff, toAsciiLowercase_append]
  constructor
  · rintro ⟨label, hlabel, h⟩
    refine ⟨label, hlabel, ?_⟩
    have hlower := congrArg toAsciiLowercase h
    rw [toAsciiLowercase_idem, toAsciiLowercase_append, toAsciiLowercase_idem] at hlower
    exact hlower
  · rintro ⟨label, hlabel, h⟩
    exact ⟨toAsciiLowercase label, isLabel_toAsciiLowercase hlabel, h⟩

theorem declares_iff_of_wildcard {pattern host suffix : String}
    (h : stripPrefix pattern "*." = some suffix) : Declares pattern host ↔
      ∃ label, IsLabel label ∧ eqIgnoreAsciiCase host (label ++ "." ++ suffix) = true := by
  constructor
  · intro hdeclares
    cases hdeclares with
    | wildcard strip single same =>
      rw [h] at strip
      cases strip
      exact ⟨_, single, same⟩
    | name strip same =>
      rw [h] at strip
      cases strip
  · rintro ⟨label, hlabel, hhost⟩
    exact .wildcard h hlabel hhost

variable {pattern host : String}

theorem declares_iff_of_name (h : stripPrefix pattern "*." = none) :
    Declares pattern host ↔ eqIgnoreAsciiCase host pattern = true := by
  refine ⟨fun hdeclares => ?_, .name h⟩
  cases hdeclares with
  | wildcard strip single same =>
    rw [h] at strip
    cases strip
  | name strip same => exact same

theorem hostMatches_iff : hostMatches pattern host = true ↔
      Declares (trim pattern) (trim host) ∨ Undotted (trim pattern) (trim host) := by
  have hdot (suffix : String) : toAsciiLowercase ("." ++ suffix) =
      "." ++ toAsciiLowercase suffix := by
    rw [toAsciiLowercase_append]
    congr 1
    rw [← String.toList_inj, toList_toAsciiLowercase]
    rfl
  rw [hostMatches, Undotted, stripPrefix_toAsciiLowercase]
  cases h : stripPrefix (trim pattern) "*." with
  | none =>
    simp only [Option.map_none, beq_iff_eq, declares_iff_of_name h, eqIgnoreAsciiCase_iff,
      reduceCtorEq, false_and, exists_false, or_false]
    exact eq_comm
  | some suffix =>
    simp only [Option.map_some, wildcard_iff, Option.some.injEq, exists_eq_left',
      declares_iff_of_wildcard h]
    simp only [String.append_assoc, ← hdot, and_or_left, exists_or, exists_label_iff]

/-- No host is one of a wildcard both with the dot and without. -/
theorem not_declares_of_undotted (h : Undotted pattern host) : ¬ Declares pattern host := by
  obtain ⟨suffix, hpattern, label, hlabel, hhost⟩ := h
  rw [declares_iff_of_wildcard hpattern]
  rintro ⟨dotted, -, hdotted⟩
  rw [eqIgnoreAsciiCase_iff, toAsciiLowercase_append] at hhost hdotted
  rw [hhost, String.append_left_inj] at hdotted
  refine (isLabel_toAsciiLowercase hlabel).2 ?_
  have hdot : ".".toList = ['.'] := rfl
  rw [hdotted, dot_mem_toAsciiLowercase, String.toList_append, hdot]
  exact List.mem_append_right _ List.mem_cons_self

/-- A pattern matches exactly the hosts that it declares if and only if the host is not one of a
wildcard without the dot, and the check of a request admits declared hosts only if and only if the
host is declared or is no such host of any pattern. -/
theorem host_matches_iff_declares (pattern host : String) (networkHosts : List String) :
    ((hostMatches pattern host = true ↔ Declares (trim pattern) (trim host)) ↔
      ¬ Undotted (trim pattern) (trim host)) ∧
    ((egressAllowed networkHosts host = true →
        ∃ declared ∈ networkHosts, Declares (trim declared) (trim host)) ↔
      (∃ declared ∈ networkHosts, Declares (trim declared) (trim host)) ∨
        ∀ declared ∈ networkHosts, ¬ Undotted (trim declared) (trim host)) := by
  constructor
  · rw [hostMatches_iff, or_iff_left_iff_imp]
    exact ⟨fun h hundotted => not_declares_of_undotted hundotted (h hundotted),
      fun h hundotted => absurd hundotted h⟩
  · rw [egressAllowed, List.any_eq_true]
    simp only [hostMatches_iff]
    constructor
    · intro h
      by_cases hundotted : ∃ declared ∈ networkHosts, Undotted (trim declared) (trim host)
      · obtain ⟨declared, hmem, hdeclared⟩ := hundotted
        exact .inl (h ⟨declared, hmem, .inr hdeclared⟩)
      · exact .inr fun declared hmem hdeclared => hundotted ⟨declared, hmem, hdeclared⟩
    · rintro (h | h) ⟨declared, hmem, hdeclares | hundotted⟩
      · exact h
      · exact h
      · exact ⟨declared, hmem, hdeclares⟩
      · exact absurd hundotted (h declared hmem)

/-- The registered domain of this host is not the declared one. -/
theorem evil_host_matches :
    ¬ ∀ pattern host : String, validateNetworkHost pattern = .ok () →
      (hostMatches pattern host = true ↔ Declares (trim pattern) (trim host)) := by
  intro h
  have haccepted : validateNetworkHost "*.svc.example" = .ok () := by decide +kernel
  have hmatches : hostMatches "*.svc.example" "evilsvc.example" = true := by decide +kernel
  have hundotted : Undotted (trim "*.svc.example") (trim "evilsvc.example") :=
    ⟨"svc.example", by decide +kernel, "evil", by decide +kernel, by decide +kernel⟩
  exact not_declares_of_undotted hundotted ((h _ _ haccepted).mp hmatches)

end Kinetix.Plugins.NetworkHosts
