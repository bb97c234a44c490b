import Narwhal.Lib.Pattern
import Narwhal.Portal.Scope
import Narwhal.Portal.Silence

open jslib pattern
open narwhal.portal.alert_silence (SilenceMatcher)
open narwhal.portal.scope (EffectiveScope namespaceVisible)

namespace narwhal.portal.alert_silence_scope

inductive SilenceScopeVerdict where
  | ok
  | refused (status : Nat) (message : Text)
deriving DecidableEq

/-- Whether a text is `.*`, `.+`, `(.*)` and `(.+)` in a row. -/
def spelled : Text → Bool
  | [] => true
  | '.' :: '*' :: rest => spelled rest
  | '.' :: '+' :: rest => spelled rest
  | '(' :: '.' :: '*' :: ')' :: rest => spelled rest
  | '(' :: '.' :: '+' :: ')' :: rest => spelled rest
  | _ => false

/-- `CATCH_ALL_REGEX_RE.test`. -/
def isCatchAll (value : Text) : Bool := value != [] && spelled value

/-- The refusal of the first matcher that is spelled as a catch-all. -/
def catchAll (matchers : List SilenceMatcher) : Option SilenceMatcher :=
  matchers.find? fun m => m.isRegex && isCatchAll (trimText m.value)

def checkSilenceScope (matchers : List SilenceMatcher) (role : Text) (scope : EffectiveScope) : SilenceScopeVerdict :=
  match catchAll matchers with
  | some m => .refused 400 ("matcher '".toList ++ m.name ++ "' is a catch-all regex — narrow it".toList)
  | none =>
    if role = "cluster-admin".toList then .ok
    else
      match matchers.find? fun m => m.name = "namespace".toList with
      | none => .refused 403 "a namespace-less (global) silence requires cluster-admin".toList
      | some nsMatcher =>
        if nsMatcher.isRegex then .refused 403 "the namespace matcher must be an exact match for non-admin roles".toList
        else if !scope.hasMapping || !namespaceVisible nsMatcher.value scope then
          .refused 403 ("not authorized for namespace '".toList ++ nsMatcher.value ++ ['\''])
        else .ok

/-- The first namespace matcher names a namespace in the scope exactly. -/
def NamesVisibleNamespace (matchers : List SilenceMatcher) (scope : EffectiveScope) : Prop :=
  ∃ nsMatcher, (matchers.find? fun m => m.name = "namespace".toList) = some nsMatcher ∧
    nsMatcher.isRegex = false ∧ scope.hasMapping = true ∧ namespaceVisible nsMatcher.value scope = true

/-- What a role may silence at all. -/
def Permitted (matchers : List SilenceMatcher) (role : Text) (scope : EffectiveScope) : Prop :=
  role = "cluster-admin".toList ∨ NamesVisibleNamespace matchers scope

/-- Where a list is accepted. -/
theorem checkSilenceScope_ok_iff {matchers : List SilenceMatcher} {role : Text} {scope : EffectiveScope} :
    checkSilenceScope matchers role scope = .ok ↔
      (∀ m ∈ matchers, m.isRegex = true → isCatchAll (trimText m.value) = false) ∧ Permitted matchers role scope := by
  have hspelled : catchAll matchers = none ↔
      ∀ m ∈ matchers, m.isRegex = true → isCatchAll (trimText m.value) = false := by
    rw [catchAll, List.find?_eq_none]
    simp only [Bool.and_eq_true, not_and, Bool.not_eq_true]
  rw [← hspelled]
  unfold checkSilenceScope
  cases hcatch : catchAll matchers with
  | some m => simp
  | none =>
    dsimp only
    by_cases hrole : role = "cluster-admin".toList
    · exact iff_of_true (if_pos hrole) ⟨rfl, .inl hrole⟩
    · have hpermitted : Permitted matchers role scope ↔ NamesVisibleNamespace matchers scope := or_iff_right hrole
      rw [if_neg hrole, hpermitted, NamesVisibleNamespace, and_iff_right rfl]
      cases hfind : matchers.find? fun m => m.name = "namespace".toList with
      | none => simp
      | some nsMatcher =>
        dsimp only
        cases hregex : nsMatcher.isRegex with
        | true => simp [hregex]
        | false =>
          cases hmapping : scope.hasMapping with
          | false => simp
          | true =>
            cases hvisible : namespaceVisible nsMatcher.value scope with
            | false => simp [hvisible]
            | true => simp [hregex, hvisible]

section

-- `compile` gives the expression that Alertmanager reads from a pattern; none where it refuses the
-- pattern, and the silence with it
variable (compile : Text → Option (Regex CharClass))

/-- Some text is not matched as a whole. -/
def Narrow (m : SilenceMatcher) : Prop :=
  ∀ r, compile m.value = some r → ∃ s, s ∉ r.lang CharClass.has

/-- No set of expressions that can be left of the pattern is without a nullable one. -/
def isBroad (m : SilenceMatcher) : Bool := (compile m.value).any coversAll

theorem narrow_iff (m : SilenceMatcher) : Narrow compile m ↔ isBroad compile m = false := by
  rw [Narrow, isBroad]
  cases compile m.value with
  | none => simp
  | some r =>
    have hcovers := not_congr (coversAll_iff (r := r))
    rw [Bool.not_eq_true, not_forall] at hcovers
    simp [hcovers]

/-- An accepted list has no regular expression that matches everything exactly if none of its
    expressions passes the test for it, or the list is not accepted: for the spelling of a pattern, or
    for what the role may silence. -/
theorem accepted_narrow_iff (matchers : List SilenceMatcher) (role : Text) (scope : EffectiveScope) :
    (checkSilenceScope matchers role scope = .ok → ∀ m ∈ matchers, m.isRegex = true → Narrow compile m) ↔
      (∃ m ∈ matchers, m.isRegex = true ∧ isCatchAll (trimText m.value) = true) ∨
      ¬ Permitted matchers role scope ∨
      ∀ m ∈ matchers, m.isRegex = true → isBroad compile m = false := by
  rw [checkSilenceScope_ok_iff]
  simp only [narrow_iff]
  by_cases hspelled : ∃ m ∈ matchers, m.isRegex = true ∧ isCatchAll (trimText m.value) = true
  · refine iff_of_true (fun h => ?_) (.inl hspelled)
    obtain ⟨m, hm, hregex, hcatch⟩ := hspelled
    rw [h.1 m hm hregex] at hcatch
    cases hcatch
  · have hnone : ∀ m ∈ matchers, m.isRegex = true → isCatchAll (trimText m.value) = false := by
      intro m hm hregex
      by_contra hcatch
      exact hspelled ⟨m, hm, hregex, Bool.not_eq_false _ ▸ hcatch⟩
    rw [or_iff_right hspelled, and_iff_right hnone, imp_iff_not_or]

end

def sampleScope : EffectiveScope :=
  ⟨false, [['t', 'e', 'a', 'm']], [], true, [], ⟨false, [['t', 'e', 'a', 'm']], [], []⟩, []⟩

/-- The pattern `[\s\S]*` is accepted. -/
theorem class_star_accepted :
    ∃ matchers : List SilenceMatcher,
      checkSilenceScope matchers "developer".toList sampleScope = .ok ∧
      ∃ m ∈ matchers, m.isRegex = true ∧ ¬ Narrow readPattern m := by
  refine ⟨[⟨"namespace".toList, ['t', 'e', 'a', 'm'], false⟩, ⟨"alertname".toList, ['[', '\\', 's', '\\', 'S', ']', '*'], true⟩],
    by decide, ⟨"alertname".toList, ['[', '\\', 's', '\\', 'S', ']', '*'], true⟩, by decide, rfl, ?_⟩
  rw [narrow_iff]
  decide

end narwhal.portal.alert_silence_scope
