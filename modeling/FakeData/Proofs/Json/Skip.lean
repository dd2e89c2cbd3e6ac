import FakeData.Json.Skip
import FakeData.Proofs.Json.Spelling
import FakeData.Proofs.Json.Taking

/-!
# What is passed over

Wherever a value is spelled, passing over it stops right behind it, however deep the value is
nested. A key and the value of a member are passed over alike.
-/
namespace FakeData.Json

variable {s rest unread after : List Char} {negative below : Bool} {d : Digits} {n : JsonNumber}
  {c : Char} {fuel : Nat} {e : Enclosure} {outer : List Enclosure} {close : Mark} {first : Bool}

/-! ## Numbers -/

theorem exponentDigits_unread {power : Nat}
    (h : exponentDigits negative below d power s = .ok (n, rest)) :
    rest = s.dropWhile Char.isDigit := by
  fun_induction exponentDigits negative below d power s with
  | case1 power => exact signedDouble_unread h
  | case2 => cases h
  | case3 power c s hdigit hlarge hzero =>
    rw [signedDouble_unread h, List.dropWhile_cons_of_pos hdigit]
  | case4 power c s hdigit hsmall ih => rw [ih h, List.dropWhile_cons_of_pos hdigit]
  | case5 power c s hdigit => rw [signedDouble_unread h, List.dropWhile_cons_of_neg hdigit]

theorem pushDigits_unread (push : Digits → Char → Digits) (d : Digits) (s : List Char) :
    (pushDigits push d s).2 = s.dropWhile Char.isDigit := by
  fun_induction pushDigits push d s with
  | case1 => rfl
  | case2 d c s hdigit ih => rw [ih, List.dropWhile_cons_of_pos hdigit]
  | case3 d c s hdigit => rw [List.dropWhile_cons_of_neg hdigit]

theorem skipExponent_of_exponentPart (h : exponentPart negative d s = .ok (n, rest)) :
    skipExponent s = .ok rest := by
  unfold exponentPart at h
  split at h
  rename_i below unsigned hsign
  cases unsigned with
  | nil => cases h
  | cons c more =>
    dsimp only at h
    split_ifs at h with hdigit
    rw [exponentDigits_unread h]
    unfold skipExponent
    split at hsign
    · cases hsign
      exact if_pos hdigit
    · cases hsign
      exact if_pos hdigit
    · cases hsign
      simp only
      exact if_pos hdigit

theorem skipAfterFraction_of_afterFraction (h : afterFraction negative d s = .ok (n, rest)) :
    skipAfterFraction s = .ok rest := by
  cases s with
  | nil => rw [signedDouble_unread h, skipAfterFraction]
  | cons c s =>
    rw [afterFraction] at h
    rw [skipAfterFraction]
    split_ifs at h ⊢
    · exact skipExponent_of_exponentPart h
    · rw [signedDouble_unread h]

theorem skipAfterWhole_of_fractionPart (h : fractionPart negative d s = .ok (n, rest)) :
    skipAfterWhole ('.' :: s) = .ok rest := by
  cases s with
  | nil => cases h
  | cons c s =>
    unfold fractionPart at h
    dsimp only at h
    split_ifs at h with hdigit
    rw [pushDigits_unread, List.dropWhile_cons_of_pos hdigit] at h
    rw [skipAfterWhole.eq_def]
    exact (if_pos hdigit).trans (skipAfterFraction_of_afterFraction h)

theorem skipAfterWhole_of_afterWhole (h : afterWhole negative d s = .ok (n, rest)) :
    skipAfterWhole s = .ok rest := by
  cases s with
  | nil =>
    rw [wholeNumber_unread h]
    rfl
  | cons c s =>
    rw [afterWhole] at h
    split_ifs at h with hpoint hletter
    · subst hpoint
      exact skipAfterWhole_of_fractionPart h
    · rw [skipAfterWhole, skipAfterFraction, if_pos hletter]
      · exact skipExponent_of_exponentPart h
      · exact fun _ hpair => hpoint (List.cons.inj hpair).1
    · rw [skipAfterWhole, skipAfterFraction, if_neg hletter, wholeNumber_unread h]
      exact fun _ hpair => hpoint (List.cons.inj hpair).1

theorem skipNumber_of_readNumber (h : readNumber negative s = .ok (n, rest)) :
    skipNumber s = .ok rest := by
  cases s with
  | nil => cases h
  | cons c s =>
    unfold readNumber at h
    unfold skipNumber
    dsimp only at h ⊢
    split_ifs at h ⊢ with hzero hdigit
    · cases s with
      | nil => rw [wholeNumber_unread h]
      | cons next s =>
        dsimp only at h ⊢
        split_ifs at h ⊢
        exact skipAfterWhole_of_afterWhole h
    · rw [pushDigits_unread, List.dropWhile_cons_of_pos hdigit] at h
      exact skipAfterWhole_of_afterWhole h

/-! ## Strings -/

theorem skipString_escape (h : skipEscape s = .ok after) :
    skipString (fuel + 1) ('\\' :: s) = skipString fuel after := by
  rw [skipString, if_neg (by decide), if_neg (by decide), if_pos rfl, h]

theorem skipEscape_quad {unit : Nat} (h : hexQuad s = .ok unit) :
    skipEscape ('u' :: s) = .ok (s.drop 4) := by
  rw [skipEscape, if_neg (by decide), if_pos rfl, h]
  rfl

/-- The code of a character is one escape or, with a surrogate pair, two of them. -/
theorem skipString_codeUnit {taken : Nat} (h : codeUnitEscape s = .ok (c, taken))
    (enough : s.length < fuel) : ∃ left, (s.drop taken).length < left ∧
      skipString (fuel + 1) ('\\' :: 'u' :: s) = skipString left (s.drop taken) := by
  unfold codeUnitEscape at h
  cases hquad : hexQuad s with
  | error fault => simp [hquad] at h
  | ok unit =>
    simp only [hquad] at h
    rw [skipString_escape (skipEscape_quad hquad)]
    split_ifs at h
    · obtain rfl := taken_of_lowSurrogate h
      have hread : readLowSurrogate unit (s.drop 4) = .ok (c, (s.drop 4).drop 6) := by
        rw [readLowSurrogate, h]
        rfl
      obtain ⟨t, ht⟩ := exists_escape_of_lowSurrogate hread
      have hlow : ∃ low, hexQuad t = .ok low := by
        rw [ht] at h
        cases hlow : hexQuad t with
        | error fault => simp [lowSurrogate, hlow] at h
        | ok low => exact ⟨low, rfl⟩
      obtain ⟨low, hlow⟩ := hlow
      have hrest : s.drop 10 = t.drop 4 := by
        have hdrop := congrArg (List.drop 6) ht
        rwa [List.drop_drop] at hdrop
      obtain ⟨fuel, rfl⟩ : ∃ left, fuel = left + 1 := ⟨fuel - 1, by omega⟩
      have hlength := congrArg List.length ht
      simp only [List.length_drop, List.length_cons] at hlength
      refine ⟨fuel, ?_, ?_⟩
      · rw [List.length_drop]
        omega
      · rw [ht, skipString_escape (skipEscape_quad hlow), hrest]
    · cases h
      exact ⟨fuel, by rw [List.length_drop]; omega, rfl⟩

theorem skipString_of_stringRest {cs : List Char} (h : stringRest s = .ok (cs, rest))
    (enough : s.length < fuel) : skipString fuel s = .ok rest := by
  fun_induction stringRest s generalizing cs fuel with
  | case1 => cases h
  | case2 s =>
    cases h
    obtain ⟨fuel, rfl⟩ : ∃ left, fuel = left + 1 := ⟨fuel - 1, by omega⟩
    rw [skipString, if_pos rfl]
  | case3 => cases h
  | case4 c s hquote hcontrol hplain ih =>
    obtain ⟨others, hothers, -⟩ := consRead_eq_ok_iff.mp h
    rw [List.length_cons] at enough
    obtain ⟨fuel, rfl⟩ : ∃ left, fuel = left + 1 := ⟨fuel - 1, by omega⟩
    rw [skipString, if_neg hquote, if_neg hcontrol, if_neg hplain]
    exact ih hothers (by omega)
  | case5 => cases h
  | case6 c hquote hcontrol hplain letter s escaped hescape ih =>
    obtain ⟨others, hothers, -⟩ := consRead_eq_ok_iff.mp h
    obtain rfl := not_not.mp hplain
    rw [List.length_cons, List.length_cons] at enough
    obtain ⟨fuel, rfl⟩ : ∃ left, fuel = left + 1 := ⟨fuel - 1, by omega⟩
    have hskip : skipEscape (letter :: s) = .ok s := by
      rw [skipEscape, hescape]
      rfl
    rw [skipString_escape hskip]
    exact ih hothers (by omega)
  | case7 => cases h
  | case8 c hquote hcontrol hplain s escaped taken hescape _ ih =>
    obtain ⟨others, hothers, -⟩ := consRead_eq_ok_iff.mp h
    obtain rfl := not_not.mp hplain
    rw [List.length_cons, List.length_cons] at enough
    obtain ⟨fuel, rfl⟩ : ∃ left, fuel = left + 1 := ⟨fuel - 1, by omega⟩
    obtain ⟨left, hleft, hskip⟩ := skipString_codeUnit hescape (by omega : s.length < fuel)
    rw [hskip]
    exact ih hothers hleft
  | case9 => cases h

theorem skipString_of_readString {text : String} (h : readString s = .ok (text, rest)) :
    skipString (s.length + 1) s = .ok rest := by
  rw [readString] at h
  split at h
  · cases h
  · cases h
    exact skipString_of_stringRest ‹_› (Nat.lt_succ_self _)

/-! ## Parts of values -/

theorem map_snd_of_toOption_map {α : Type} {f : α → Scalar} {scalar : Scalar}
    {got : Except Fault (α × List Char)}
    (h : got.toOption.map (fun (a, s) => (f a, s)) = some (scalar, rest)) :
    got.map (·.2) = .ok rest := by
  obtain ⟨_, rfl, hrest⟩ := toOption_map_eq_some_iff.mp h
  cases hrest
  rfl

theorem skipScalar_of_scalar? {scalar : Scalar} (h : scalar? c s = some (scalar, rest)) :
    skipScalar (c :: s) = .ok rest := by
  rw [scalar?] at h
  rw [skipScalar]
  split_ifs at h ⊢
  · exact @map_snd_of_toOption_map _ _ (fun _ => .null) _ _ h
  · exact @map_snd_of_toOption_map _ _ (fun _ => .bool true) _ _ h
  · exact @map_snd_of_toOption_map _ _ (fun _ => .bool false) _ _ h
  · obtain ⟨_, hstring, hrest⟩ := toOption_map_eq_some_iff.mp h
    cases hrest
    exact skipString_of_readString hstring
  · obtain ⟨_, hnumber, hrest⟩ := toOption_map_eq_some_iff.mp h
    cases hrest
    exact skipNumber_of_readNumber hnumber
  · obtain ⟨_, hnumber, hrest⟩ := toOption_map_eq_some_iff.mp h
    cases hrest
    exact skipNumber_of_readNumber hnumber

theorem skipKey_of_lexes {key : String}
    (h : Lexes s [.scalar (.string key), .mark .colon] rest) : skipKey s = .ok rest := by
  obtain ⟨after, next, hquote, hstring, h⟩ := exists_readString_of_lexes h
  obtain ⟨_, hcolon, ⟨⟩⟩ := lexes_mark_iff.mp h
  simp [skipKey, hquote, skipString_of_readString hstring, hcolon, Mark.char]

theorem skipClosers_close {afterValue : Bool} (h : skipSpace s = e.close :: rest)
    (hcomma : e.close ≠ ',') :
    skipClosers afterValue (e :: outer) s = skipClosers true outer rest := by
  rw [skipClosers, h]
  simp [hcomma]

/-- What leads to a part of a list or object is passed over, and the list or object stays open. -/
theorem exists_skipClosers_lead (hclose : close.char = e.close) {part : List Token}
    (h : IsPart close part) (found : Lexes s (lead first ++ part) rest) :
    ∃ next, skipClosers (!first) (e :: outer) s = .ok (e :: outer, next) ∧
      Lexes next part rest ∧ next.length ≤ s.length := by
  cases first with
  | true =>
    obtain ⟨c, after, hs, hother⟩ := h.exists_skipSpace found
    rw [hclose] at hother
    refine ⟨c :: after, ?_, ?_, ?_⟩
    · rw [skipClosers, hs]
      simp [hother]
    · rw [← hs]
      exact (lexes_skipSpace_iff h.ne_nil).mpr found
    · rw [← hs]
      exact (skipSpace_suffix s).length_le
  | false =>
    have hlead : lead false ++ part = .mark .comma :: part := rfl
    rw [hlead, lexes_mark_iff] at found
    obtain ⟨next, hs, found⟩ := found
    have hlength := (skipSpace_suffix s).length_le
    rw [hs, List.length_cons] at hlength
    refine ⟨next, ?_, found, by omega⟩
    rw [skipClosers, hs]
    simp [Mark.char]

/-! ## Values -/

/-- Goes on after closing brackets: with the next value of the innermost list or object that is
still open. -/
def resume (fuel : Nat) : Except Fault (List Enclosure × List Char) → Except Fault (List Char)
  | .error fault => .error fault
  | .ok ([], s) => .ok s
  | .ok (e :: outer, s) =>
    if e = .object then
      match skipKey s with
      | .error fault => .error fault
      | .ok s => skipValues fuel (e :: outer) s
    else skipValues fuel (e :: outer) s

theorem skipValues_list (h : skipSpace s = '[' :: after) :
    skipValues (fuel + 1) outer s = resume fuel (skipClosers false (.list :: outer) after) := by
  rw [skipValues, h]
  rfl

theorem skipValues_object (h : skipSpace s = '\x7b' :: after) :
    skipValues (fuel + 1) outer s = resume fuel (skipClosers false (.object :: outer) after) := by
  rw [skipValues, h]
  rfl

theorem skipValues_scalar {scalar : Scalar} (h : skipSpace s = c :: after)
    (hscalar : scalar? c after = some (scalar, rest)) :
    skipValues (fuel + 1) outer s = resume fuel (skipClosers true outer rest) := by
  have hlist : c ≠ '[' := by
    rintro rfl
    cases (scalar?_mark .openList after).symm.trans hscalar
  have hobject : c ≠ '\x7b' := by
    rintro rfl
    cases (scalar?_mark .openObject after).symm.trans hscalar
  rw [skipValues, h]
  simp only [if_neg hlist, if_neg hobject, skipScalar_of_scalar? hscalar]
  rfl

/-- From the first text to the second one a value is passed over. No more is counted than there
are characters. -/
def Passes (s rest : List Char) : Prop :=
  ∀ fuel outer, s.length < fuel → ∃ left, rest.length < left ∧
    skipValues fuel outer s = resume left (skipClosers true outer rest)

/-- Inside a list or object the part is passed over, wherever it is spelled. -/
def PartPasses (e : Enclosure) (part : List Token) : Prop :=
  ∀ s rest fuel outer, Lexes s part rest → s.length < fuel → ∃ left, rest.length < left ∧
    resume fuel (.ok (e :: outer, s)) = resume left (skipClosers true (e :: outer) rest)

/-- All parts and the closing bracket are passed over, one part after the other. -/
theorem exists_resume_remaining (hclose : close.char = e.close) (hcomma : e.close ≠ ',')
    {parts : List (List Token)} (hparts : ∀ part ∈ parts, IsPart close part ∧ PartPasses e part)
    (found : Lexes s (remaining close first parts) rest) (enough : s.length < fuel) :
    ∃ left, rest.length < left ∧
      resume fuel (skipClosers (!first) (e :: outer) s) =
        resume left (skipClosers true outer rest) := by
  induction parts generalizing first s fuel with
  | nil =>
    have hlength := found.length_le
    have hs := lexes_remaining_nil_iff.mp found
    rw [hclose] at hs
    exact ⟨fuel, by omega, by rw [skipClosers_close hs hcomma]⟩
  | cons part parts ih =>
    obtain ⟨⟨hpart, hpasses⟩, hparts⟩ := List.forall_mem_cons.mp hparts
    obtain ⟨last, hlead, hothers⟩ := lexes_remaining_cons_iff.mp found
    obtain ⟨next, hnext, hlexes, hlength⟩ := exists_skipClosers_lead hclose hpart hlead
    obtain ⟨middle, hmiddle, hresume⟩ := hpasses _ _ fuel outer hlexes (by omega)
    obtain ⟨left, hleft, hrest⟩ := ih hparts hothers hmiddle
    exact ⟨left, hleft, by rw [hnext, hresume]; exact hrest⟩

theorem partPasses_item {v : Json} (h : ∀ s rest, Lexes s v.tokens rest → Passes s rest) :
    PartPasses .list v.tokens := by
  intro s rest fuel outer found enough
  exact h s rest found fuel _ enough

theorem partPasses_member {v : Json} (h : ∀ s rest, Lexes s v.tokens rest → Passes s rest)
    (key : String) : PartPasses .object (.scalar (.string key) :: .mark .colon :: v.tokens) := by
  intro s rest fuel outer found enough
  have hsplit : Lexes s ([.scalar (.string key), .mark .colon] ++ v.tokens) rest := found
  obtain ⟨next, hkey, hvalue⟩ := lexes_append_iff.mp hsplit
  have hlength := hkey.length_le
  obtain ⟨left, hleft, hskip⟩ := h next rest hvalue fuel (.object :: outer) (by omega)
  refine ⟨left, hleft, ?_⟩
  rw [resume, if_pos rfl, skipKey_of_lexes hkey]
  exact hskip

theorem passes_scalar {scalar : Scalar} (found : Lexes s scalar.value.tokens rest) :
    Passes s rest := by
  intro fuel outer enough
  obtain ⟨c, after, hs, hscalar⟩ := lexes_value_iff.mp found
  have hlength := found.length_le
  rw [tokens_value, List.length_singleton] at hlength
  obtain ⟨fuel, rfl⟩ : ∃ left, fuel = left + 1 := ⟨fuel - 1, by omega⟩
  exact ⟨fuel, by omega, skipValues_scalar hs hscalar⟩

theorem passes_array {items : List Json}
    (h : ∀ item ∈ items, ∀ s rest, Lexes s item.tokens rest → Passes s rest)
    (found : Lexes s (Json.array items).tokens rest) : Passes s rest := by
  intro fuel outer enough
  obtain ⟨after, hs, hitems⟩ := lexes_array_iff.mp found
  have hafter := (skipSpace_suffix s).length_le
  rw [hs, List.length_cons] at hafter
  obtain ⟨fuel, rfl⟩ : ∃ left, fuel = left + 1 := ⟨fuel - 1, by omega⟩
  have hparts : ∀ part ∈ itemTokens items, IsPart .closeList part ∧ PartPasses .list part := by
    rw [itemTokens_eq_map, List.forall_mem_map]
    intro item mem
    exact ⟨isPart_tokens_of_list item, partPasses_item (h item mem)⟩
  rw [skipValues_list hs]
  exact exists_resume_remaining rfl (by decide) hparts hitems (by omega)

theorem passes_object {members : List (String × Json)}
    (h : ∀ member ∈ members, ∀ s rest, Lexes s member.2.tokens rest → Passes s rest)
    (found : Lexes s (Json.object members).tokens rest) : Passes s rest := by
  intro fuel outer enough
  obtain ⟨after, hs, hmembers⟩ := lexes_object_iff.mp found
  have hafter := (skipSpace_suffix s).length_le
  rw [hs, List.length_cons] at hafter
  obtain ⟨fuel, rfl⟩ : ∃ left, fuel = left + 1 := ⟨fuel - 1, by omega⟩
  have hparts : ∀ part ∈ memberTokens members,
      IsPart .closeObject part ∧ PartPasses .object part := by
    rw [memberTokens_eq_map, List.forall_mem_map]
    intro member mem
    exact ⟨isPart_member member.1 member.2, partPasses_member (h member mem) member.1⟩
  rw [skipValues_object hs]
  exact exists_resume_remaining rfl (by decide) hparts hmembers (by omega)

theorem passes_of_lexes (v : Json) (s rest : List Char) (found : Lexes s v.tokens rest) :
    Passes s rest := by
  match v with
  | .null => exact @passes_scalar s rest .null found
  | .bool value => exact @passes_scalar s rest (.bool value) found
  | .number value => exact @passes_scalar s rest (.number value) found
  | .string text => exact @passes_scalar s rest (.string text) found
  | .array items =>
    refine passes_array (fun item mem => ?_) found
    have hsize := List.sizeOf_lt_of_mem mem
    exact passes_of_lexes item
  | .object members =>
    refine passes_object (fun member mem => ?_) found
    have hsize := List.sizeOf_lt_of_mem mem
    exact passes_of_lexes member.2
termination_by sizeOf v
decreasing_by
  · simp only [Json.array.sizeOf_spec]
    omega
  · obtain ⟨key, value⟩ := member
    simp only [Json.object.sizeOf_spec, Prod.mk.sizeOf_spec] at hsize ⊢
    omega

/-- Wherever a value is spelled, passing over it stops right behind it. -/
theorem skipValue_of_lexes {v : Json} (found : Lexes s v.tokens rest) :
    skipValue s = .ok rest := by
  obtain ⟨left, -, hskip⟩ := passes_of_lexes v s rest found (s.length + 1) [] (Nat.lt_succ_self _)
  rw [skipValue, hskip]
  rfl

end FakeData.Json
