import JitTrace.Text.Blank
import JitTrace.Text.Cut
import Mathlib.Data.List.DropRight

/-!
# Trimmed texts and texts that are cut

Trimming takes blanks from the ends of a text and nothing else, so a text without blanks at
its ends is kept, and no blank is left at the end of what has been trimmed. A text is cut at the
separator behind a part that has none, or in front of one.
-/

namespace JitTrace.Text

/-! ## Trimming -/

section Trimming

variable {cs : List Char}

theorem trim_eq_self (first : ∀ c ∈ cs.head?, isBlank c = false)
    (last : ∀ c ∈ cs.getLast?, isBlank c = false) : trim cs = cs := by
  have front : trimFront cs = cs := by
    cases cs with
    | nil => rfl
    | cons c cs => exact List.dropWhile_cons_of_neg (by simp [first c rfl])
  have back : cs.rdropWhile isBlank = cs :=
    List.rdropWhile_eq_self_iff.mpr fun nonempty => by
      simp [last _ (List.getLast_mem_getLast? nonempty)]
  rw [trim, front]
  exact back

/-- Texts without blanks have none at their ends. -/
theorem trim_of_clear (clear : ∀ c ∈ cs, isBlank c = false) : trim cs = cs :=
  trim_eq_self (fun c isFirst => clear c (List.mem_of_head? isFirst))
    fun c isLast => clear c (List.mem_of_getLast? isLast)

theorem getLast?_trim : ∀ c ∈ (trim cs).getLast?, isBlank c = false := by
  intro c isLast
  have nonempty : trim cs ≠ [] := by
    rintro isEmpty
    rw [isEmpty] at isLast
    contradiction
  rw [List.getLast?_eq_some_getLast nonempty] at isLast
  have visible := List.rdropWhile_last_not isBlank (trimFront cs) nonempty
  rw [← Option.some.inj isLast]
  exact Bool.not_eq_true _ ▸ visible

/-- What is visible at its end stays so behind a visible character. -/
theorem getLast?_cons_visible {c : Char} (visible : isBlank c = false)
    (last : ∀ c ∈ cs.getLast?, isBlank c = false) :
    ∀ d ∈ (c :: cs).getLast?, isBlank d = false := by
  rw [List.getLast?_cons]
  cases isLast : cs.getLast? with
  | none => simp [visible]
  | some lastOne => simp [last lastOne isLast]

end Trimming

/-! ## Cutting -/

/-- Cutting finds the separator behind a text that has none. -/
theorem cutFirst_append {isSeparator : Char → Bool} {before : List Char} {separator : Char}
    (clear : ∀ c ∈ before, isSeparator c = false) (separates : isSeparator separator = true)
    (after : List Char) :
    cutFirst isSeparator (before ++ separator :: after) = some (before, after) := by
  induction before with
  | nil => simp [cutFirst, separates]
  | cons c before inductionHypothesis =>
    have goesOn := clear c List.mem_cons_self
    rw [List.cons_append, cutFirst, goesOn, if_neg Bool.false_ne_true,
      inductionHypothesis fun c inside => clear c (.tail _ inside)]
    rfl

theorem cutFirst_eq_none {isSeparator : Char → Bool} {cs : List Char}
    (clear : ∀ c ∈ cs, isSeparator c = false) : cutFirst isSeparator cs = none := by
  cases cut : cutFirst isSeparator cs with
  | none => rfl
  | some parts =>
    obtain ⟨separator, separates, rfl, -⟩ := eq_append_of_cutFirst cut
    simp [clear separator (by simp)] at separates

/-- What stands in front of the first separator, wherever another one is. -/
theorem exists_cutFirst_append {isSeparator : Char → Bool} {separator : Char}
    (separates : isSeparator separator = true) (before after : List Char) :
    ∃ rest, cutFirst isSeparator (before ++ separator :: after) =
      some (before.takeWhile (!isSeparator ·), rest) := by
  induction before with
  | nil => exact ⟨after, by simp [cutFirst, separates]⟩
  | cons c before inductionHypothesis =>
    obtain ⟨rest, cut⟩ := inductionHypothesis
    cases isFirst : isSeparator c with
    | true => exact ⟨before ++ separator :: after, by simp [cutFirst, isFirst]⟩
    | false => exact ⟨rest, by simp [cutFirst, isFirst, cut]⟩

/-- The last occurrence of a separator is the one that none follows. -/
theorem cutLast_append {separator : Char} {after : List Char} (clear : separator ∉ after)
    (before : List Char) :
    cutLast separator (before ++ separator :: after) = some (before, after) := by
  have unseparated : ∀ c ∈ after.reverse, (c == separator) = false := by
    intro c inside
    rw [beq_eq_false_iff_ne]
    rintro rfl
    exact clear (List.mem_reverse.mp inside)
  have reversed : (before ++ separator :: after).reverse =
      after.reverse ++ separator :: before.reverse := by
    rw [List.reverse_append, List.reverse_cons, List.append_assoc]
    rfl
  rw [cutLast, reversed, cutFirst_append unseparated (beq_self_eq_true separator)]
  simp

end JitTrace.Text
