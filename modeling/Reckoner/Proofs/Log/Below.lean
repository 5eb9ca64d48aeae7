import Mathlib.Data.List.Infix
import Reckoner.Log.Hierarchy

/-!
# Names below names

A logger is below another one if its name goes on with a dot where the other name ends. Where several dots stand
in a row, a name ends before the last of them, before the third-last and so on, but not before the others.

* `mem_ancestors_iff`, the loggers above a logger are those that it is below.
* `below_iff_of_single_dots`, without dots in a row all is as one would think.
-/

namespace Reckoner.Log.Hierarchy

/-- The name goes on with a dot after the other name. Of dots in a row, it goes on with an odd number. -/
def Below (name logger : String) : Prop :=
  ∃ (pairs : Nat) (rest : List Char), rest.head? ≠ some '.' ∧
    logger.toList = name.toList ++ (List.replicate (2 * pairs + 1) '.' ++ rest)

/-- The same for names that are read backwards. -/
def EndsBehindDot (name reversed : List Char) : Prop :=
  ∃ (pairs : Nat) (rest : List Char), rest.getLast? ≠ some '.' ∧
    reversed = rest ++ (List.replicate (2 * pairs + 1) '.' ++ name)

theorem below_iff {name logger : String} :
    Below name logger ↔ EndsBehindDot name.toList.reverse logger.toList.reverse := by
  constructor
  · rintro ⟨pairs, rest, inside, whole⟩
    exact ⟨pairs, rest.reverse, by rwa [List.getLast?_reverse], by simp [whole]⟩
  · rintro ⟨pairs, rest, inside, whole⟩
    refine ⟨pairs, rest.reverse, by rwa [List.head?_reverse], ?_⟩
    rw [← List.reverse_inj, whole]
    simp

section

variable {name rest : List Char} {c : Char}

theorem not_endsBehindDot_short {reversed : List Char} (named : name ≠ []) (short : reversed.length ≤ 1) :
    ¬ EndsBehindDot name reversed := by
  rintro ⟨pairs, before, -, rfl⟩
  have letters := List.length_pos_iff.mpr named
  simp only [List.length_append, List.length_replicate] at short
  omega

theorem endsBehindDot_cons (other : c ≠ '.') : EndsBehindDot name (c :: rest) ↔ EndsBehindDot name rest := by
  constructor
  · rintro ⟨pairs, _ | ⟨first, before⟩, inside, whole⟩
    · rw [List.replicate_succ] at whole
      exact absurd (List.cons.inj whole).1 other
    · obtain ⟨rfl, rfl⟩ := List.cons.inj whole
      refine ⟨pairs, before, fun dot => inside ?_, rfl⟩
      cases before with
      | nil => cases dot
      | cons => rwa [List.getLast?_cons_cons]
  · rintro ⟨pairs, before, inside, rfl⟩
    refine ⟨pairs, c :: before, ?_, rfl⟩
    cases before with
    | nil => simpa using other
    | cons => rwa [List.getLast?_cons_cons]

/-- Behind a dot ends the name that follows; a dot that follows is passed over. -/
theorem endsBehindDot_dot : EndsBehindDot name ('.' :: c :: rest) ↔ name = c :: rest ∨ EndsBehindDot name rest := by
  constructor
  · rintro ⟨pairs, _ | ⟨first, _ | ⟨second, before⟩⟩, inside, whole⟩
    · -- The text begins with the dots themselves.
      rcases pairs with _ | pairs
      · exact .inl (List.cons.inj whole).2.symm
      · -- Two of the dots are passed over.
        obtain ⟨-, later⟩ := List.cons.inj whole
        obtain ⟨-, later⟩ := List.cons.inj later
        exact .inr ⟨pairs, [], by simp, later⟩
    · obtain ⟨rfl, -⟩ := List.cons.inj whole
      exact absurd rfl inside
    · obtain ⟨-, later⟩ := List.cons.inj whole
      obtain ⟨-, later⟩ := List.cons.inj later
      refine .inr ⟨pairs, before, fun dot => inside ?_, later⟩
      cases before with
      | nil => cases dot
      | cons => rwa [List.getLast?_cons_cons, List.getLast?_cons_cons]
  · rintro (rfl | ⟨pairs, before, inside, rfl⟩)
    · exact ⟨0, [], by simp, rfl⟩
    · rcases before with _ | ⟨first, before⟩
      · -- The letter read counts as one of the dots, if it is one.
        by_cases dot : c = '.'
        · subst dot
          exact ⟨pairs + 1, [], by simp, rfl⟩
        · exact ⟨pairs, ['.', c], by simpa using dot, rfl⟩
      · refine ⟨pairs, '.' :: c :: first :: before, ?_, rfl⟩
        rwa [List.getLast?_cons_cons, List.getLast?_cons_cons]

end

theorem empty_not_mem_ancestorsOf (reversed : List Char) : "" ∉ ancestorsOf reversed := by
  fun_induction ancestorsOf reversed with
  | case1 | case2 => exact List.not_mem_nil
  | case3 c rest ih => simpa [← String.toList_inj] using ih
  | case4 c rest _ _ ih => exact ih

theorem mem_ancestorsOf_iff {reversed : List Char} {name : String} (named : name ≠ "") :
    name ∈ ancestorsOf reversed ↔ EndsBehindDot name.toList.reverse reversed := by
  have letters : name.toList.reverse ≠ [] := by simpa using named
  fun_induction ancestorsOf reversed with
  | case1 => exact iff_of_false List.not_mem_nil (not_endsBehindDot_short letters (by simp))
  | case2 => exact iff_of_false List.not_mem_nil (not_endsBehindDot_short letters (by simp))
  | case3 c rest ih =>
    have same : name = String.ofList (c :: rest).reverse ↔ name.toList.reverse = c :: rest := by
      rw [← String.toList_inj, String.toList_ofList, List.reverse_eq_iff]
    rw [List.mem_cons, same, endsBehindDot_dot]
    exact or_congr_right ih
  | case4 c rest _ inside ih =>
    have other : c ≠ '.' := by
      rintro rfl
      cases rest with
      | nil => contradiction
      | cons d rest => exact inside d rest rfl rfl
    rw [endsBehindDot_cons other]
    exact ih

/-- The loggers above a logger are those that it is below. -/
theorem mem_ancestors_iff {logger name : String} : name ∈ ancestors logger ↔ name ≠ "" ∧ Below name logger := by
  by_cases named : name = ""
  · subst named
    exact iff_of_false (empty_not_mem_ancestorsOf _) fun above => above.1 rfl
  · rw [ancestors, mem_ancestorsOf_iff named, below_iff, and_iff_right named]

/-- Without dots in a row, the name is below those that it goes on from with a dot. -/
theorem below_iff_of_single_dots {name logger : String} (single : ¬ ['.', '.'] <:+: logger.toList) :
    Below name logger ↔ name.toList ++ ['.'] <+: logger.toList := by
  constructor
  · rintro ⟨pairs, rest, -, whole⟩
    exact ⟨List.replicate (2 * pairs) '.' ++ rest, by simp [whole, List.replicate_succ]⟩
  · rintro ⟨rest, whole⟩
    refine ⟨0, rest, fun dot => single ?_, by simp [← whole]⟩
    obtain ⟨later, rfl⟩ := List.head?_eq_some_iff.mp dot
    exact ⟨name.toList, later, by simp [← whole]⟩

end Reckoner.Log.Hierarchy
