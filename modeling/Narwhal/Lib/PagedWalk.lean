import Mathlib.Data.List.Basic

namespace jslib

/-! Lists that are read page by page, each page with a token for the next one. -/

section

variable {α β : Type}

/-- Requests made one after the other, with their answers: the first request carries the first token, each later one
    the token of the page before it, which is not empty. `page` reads the items and the token of an answer. -/
inductive Walk (page : β → Option (List α × String)) : String → List (String × β) → List α → String → Prop
  | nil (token : String) : Walk page token [] [] token
  | cons {token next last : String} {answer : β} {items more : List α} {log : List (String × β)}
      (hpage : page answer = some (items, next)) (hnext : log ≠ [] → next ≠ "") (hrest : Walk page next log more last) :
      Walk page token ((token, answer) :: log) (items ++ more) last

/-- Every answer in the log is the one given to that request. -/
def Logged (answers : Nat → β) (log : List (String × β)) : Prop :=
  ∀ i exchange, log[i]? = some exchange → exchange.2 = answers i

theorem logged_nil (answers : Nat → β) : Logged answers [] := by
  intro i exchange hi
  cases hi

theorem Logged.snoc {answers : Nat → β} {log : List (String × β)} (h : Logged answers log) (token : String) :
    Logged answers (log ++ [(token, answers log.length)]) := by
  intro i exchange hi
  rcases Nat.lt_trichotomy i log.length with hlt | rfl | hgt
  · rw [List.getElem?_append_left hlt] at hi
    exact h i exchange hi
  · rw [List.getElem?_concat_length] at hi
    rw [← Option.some.inj hi]
  · rw [List.getElem?_eq_none (by simp; omega)] at hi
    cases hi

variable {page : β → Option (List α × String)} {token last next : String} {log : List (String × β)}
  {items more : List α} {answer : β}

theorem Walk.last_eq (h : Walk page token [] items last) : last = token := by
  cases h
  rfl

/-- A walk goes on with the page that its last token asks for. -/
theorem Walk.snoc (h : Walk page token log items last) (hlast : log ≠ [] → last ≠ "")
    (hpage : page answer = some (more, next)) :
    Walk page token (log ++ [(last, answer)]) (items ++ more) next := by
  induction h with
  | nil token =>
    have hone := @Walk.cons α β page token next next answer more [] [] hpage (by simp) (.nil next)
    simpa using hone
  | @cons token _ last _ first _ log hfirst hnext hrest ih =>
    rw [List.append_assoc]
    refine .cons hfirst (fun _ => ?_) (ih fun _ => hlast (List.cons_ne_nil _ _))
    by_cases hlog : log = []
    · subst hlog
      have hsame := hrest.last_eq
      exact hsame ▸ hlast (List.cons_ne_nil _ _)
    · exact hnext hlog

/-- Only the last token of a walk can be empty. -/
theorem Walk.requested (h : Walk page token log items last) : ∀ entry ∈ log.tail, entry.1 ≠ "" := by
  induction h with
  | nil => simp
  | @cons _ next _ _ _ _ log _ hnext hrest ih =>
    intro entry hentry
    rw [List.tail_cons] at hentry
    cases hrest with
    | nil => cases hentry
    | cons _ _ _ =>
      rcases List.mem_cons.mp hentry with rfl | hentry
      · exact hnext (List.cons_ne_nil _ _)
      · exact ih entry hentry

end

end jslib
