import Narwhal.Lib.JsonRoundTrip

namespace pylib

/-- The layout of `json.dumps(obj, indent=2)`: each item on a line of its own. -/
def indent2 (quoted : Str → Str) : Layout := ⟨quoted, fun depth => 10 :: List.replicate (2 * depth) 32, [32]⟩

theorem indent2_sound {quoted : Str → Str} {p : Str → Prop}
    (h : ∀ s, p s → ∃ body, quoted s = 34 :: body ∧ ∀ rest, scanString (body ++ rest) = some (s, rest)) :
    (indent2 quoted).Sound p where
  newline depth c hc := by
    obtain rfl | hc := List.mem_cons.mp hc
    · rfl
    · rw [List.eq_of_mem_replicate hc]
      rfl
  newline_head depth c hc := by
    cases hc
    rfl
  gap c hc := by
    obtain rfl := List.mem_singleton.mp hc
    rfl
  quoted := h

end pylib
