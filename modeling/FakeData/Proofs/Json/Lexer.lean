import FakeData.Json.Lexer
import FakeData.Proofs.Except
import Mathlib.Data.List.DropRight
import Mathlib.Data.List.Infix
import Mathlib.Tactic.SplitIfs

/-!
# What is left after words, numbers and strings

Whatever a reader of a word, a number or a string reads, it leaves an end of its text.
-/
namespace FakeData.Json

variable {s rest unread : List Char} {negative below : Bool} {d : Digits} {n : JsonNumber}

theorem skipSpace_suffix (s : List Char) : skipSpace s <:+ s := List.dropWhile_suffix isSpace

theorem skipSpace_skipSpace (s : List Char) : skipSpace (skipSpace s) = skipSpace s :=
  List.dropWhile_idempotent isSpace s

theorem readWord_suffix {letters : List Char} (h : readWord letters s = .ok ((), rest)) :
    rest <:+ s := by
  fun_induction readWord letters s with
  | case1 s =>
    cases h
    exact List.suffix_rfl
  | case2 => cases h
  | case3 letters c s ih => exact (ih h).trans (List.suffix_cons c s)
  | case4 => cases h

/-! ## Numbers -/

theorem signedDouble_unread {value? : Option Float}
    (h : signedDouble negative value? unread = .ok (n, rest)) : rest = unread := by
  cases value? with
  | none => cases h
  | some value =>
    cases h
    rfl

theorem exponentDigits_suffix {power : Nat}
    (h : exponentDigits negative below d power s = .ok (n, rest)) : rest <:+ s := by
  fun_induction exponentDigits negative below d power s with
  | case1 power =>
    rw [signedDouble_unread h]
  | case2 => cases h
  | case3 power c s hdigit hlarge hzero =>
    rw [signedDouble_unread h]
    exact (List.dropWhile_suffix _).trans (List.suffix_cons c s)
  | case4 power c s hdigit hsmall ih => exact (ih h).trans (List.suffix_cons c s)
  | case5 power c s hdigit =>
    rw [signedDouble_unread h]

theorem exponentPart_suffix (h : exponentPart negative d s = .ok (n, rest)) : rest <:+ s := by
  unfold exponentPart at h
  split at h
  rename_i below unsigned hsign
  have hunsigned : unsigned <:+ s := by
    split at hsign
    · cases hsign
      exact List.suffix_cons _ _
    · cases hsign
      exact List.suffix_cons _ _
    · cases hsign
      exact List.suffix_rfl
  split at h
  · cases h
  · split_ifs at h
    exact (exponentDigits_suffix h).trans ((List.suffix_cons _ _).trans hunsigned)

theorem pushDigits_suffix (push : Digits → Char → Digits) (d : Digits) (s : List Char) :
    (pushDigits push d s).2 <:+ s := by
  fun_induction pushDigits push d s with
  | case1 => exact List.suffix_rfl
  | case2 d c s hdigit ih => exact ih.trans (List.suffix_cons c s)
  | case3 => exact List.suffix_rfl

theorem afterFraction_suffix (h : afterFraction negative d s = .ok (n, rest)) : rest <:+ s := by
  cases s with
  | nil =>
    rw [afterFraction] at h
    rw [signedDouble_unread h]
  | cons c s =>
    rw [afterFraction] at h
    split_ifs at h
    · exact (exponentPart_suffix h).trans (List.suffix_cons c s)
    · rw [signedDouble_unread h]

theorem fractionPart_suffix (h : fractionPart negative d s = .ok (n, rest)) : rest <:+ s := by
  cases s with
  | nil => cases h
  | cons c s =>
    unfold fractionPart at h
    dsimp only at h
    split_ifs at h
    exact (afterFraction_suffix h).trans (pushDigits_suffix _ _ _)

theorem wholeNumber_unread (h : wholeNumber negative d unread = .ok (n, rest)) : rest = unread := by
  rw [wholeNumber] at h
  split_ifs at h
  · exact signedDouble_unread h
  · exact signedDouble_unread h
  · cases h
    rfl
  · cases h
    rfl

theorem afterWhole_suffix (h : afterWhole negative d s = .ok (n, rest)) : rest <:+ s := by
  cases s with
  | nil =>
    rw [afterWhole] at h
    rw [wholeNumber_unread h]
  | cons c s =>
    rw [afterWhole] at h
    split_ifs at h
    · exact (fractionPart_suffix h).trans (List.suffix_cons c s)
    · exact (exponentPart_suffix h).trans (List.suffix_cons c s)
    · rw [wholeNumber_unread h]

/-- A number has at least one digit. -/
theorem readNumber_suffix (h : readNumber negative s = .ok (n, rest)) :
    ∃ c after, s = c :: after ∧ rest <:+ after := by
  cases s with
  | nil => cases h
  | cons c s =>
    refine ⟨c, s, rfl, ?_⟩
    unfold readNumber at h
    dsimp only at h
    split_ifs at h with hzero hdigit
    · split at h
      · exact afterWhole_suffix h
      · split_ifs at h
        exact afterWhole_suffix h
    · rw [pushDigits, if_pos hdigit] at h
      exact (afterWhole_suffix h).trans (pushDigits_suffix _ _ _)

/-! ## Strings -/

theorem consRead_eq_ok_iff {c : Char} {got : Except Fault (List Char × List Char)}
    {cs : List Char} : consRead c got = .ok (cs, rest) ↔
      ∃ others, got = .ok (others, rest) ∧ cs = c :: others := by
  cases got with
  | error fault => simp [consRead]
  | ok read => simp [consRead, Prod.ext_iff, and_comm, eq_comm]

theorem stringRest_suffix {cs : List Char} (h : stringRest s = .ok (cs, rest)) : rest <:+ s := by
  fun_induction stringRest s generalizing cs with
  | case1 => cases h
  | case2 s =>
    cases h
    exact List.suffix_cons _ _
  | case3 => cases h
  | case4 c s hquote hcontrol hplain ih =>
    obtain ⟨others, hothers, -⟩ := consRead_eq_ok_iff.mp h
    exact (ih hothers).trans (List.suffix_cons c s)
  | case5 => cases h
  | case6 c hquote hcontrol hslash letter s escaped hescape ih =>
    obtain ⟨others, hothers, -⟩ := consRead_eq_ok_iff.mp h
    exact (ih hothers).trans ((List.suffix_cons letter s).trans (List.suffix_cons c _))
  | case7 => cases h
  | case8 c hquote hcontrol hslash s escaped taken hescape _ ih =>
    obtain ⟨others, hothers, -⟩ := consRead_eq_ok_iff.mp h
    have hdrop := (ih hothers).trans (List.drop_suffix taken s)
    exact hdrop.trans ((List.suffix_cons 'u' s).trans (List.suffix_cons c _))
  | case9 => cases h

theorem readString_suffix {text : String} (h : readString s = .ok (text, rest)) : rest <:+ s := by
  rw [readString] at h
  split at h
  · cases h
  · rename_i cs left hrest
    cases h
    exact stringRest_suffix hrest

end FakeData.Json
