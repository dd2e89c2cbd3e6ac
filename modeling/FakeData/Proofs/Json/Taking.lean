import FakeData.Proofs.Json.Lexer

/-!
# What a reader takes

A reader takes a part of a text when it reads that part alike whatever follows, and finds the end
of the text too early wherever the part breaks off. Words and strings are taken in this way.
Numbers are not, since the digits of a number go on as far as they can.
-/
namespace FakeData.Json

variable {α β : Type} {s rest used more : List Char} {c : Char}

/-- The text ended where more of it was needed. -/
def EndsEarly (result : Except Fault α) : Prop :=
  ∃ fault, result = .error fault ∧ fault.cause.isEnd = true

/-- Reads two things one after the other. The second is read as the first says. -/
def Reader.andThen {ε : Type} (read : Reader ε α) (next : α → Reader ε β) : Reader ε β := fun s =>
  match read s with
  | .error fault => .error fault
  | .ok (value, s) => next value s

theorem andThen_eq_ok_iff {read : Reader FaultCause α} {next : α → Reader FaultCause β} {last : β} :
    read.andThen next s = .ok (last, rest) ↔
      ∃ value left, read s = .ok (value, left) ∧ next value left = .ok (last, rest) := by
  rw [Reader.andThen]
  cases read s with
  | error fault => simp
  | ok got => simp [Prod.ext_iff, and_assoc]

/-- Wherever the text breaks off, the reader finds its end too early. -/
def NeedsAll (read : Reader FaultCause α) (used : List Char) : Prop :=
  ∀ before missing, before ++ missing = used → missing ≠ [] → EndsEarly (read before)

/-- The reader takes this part of a text for a value. -/
structure Takes (read : Reader FaultCause α) (used : List Char) (value : α) : Prop where
  whole : ∀ after, read (used ++ after) = .ok (value, after)
  cut : NeedsAll read used

theorem EndsEarly.map {result : Except Fault α} (h : EndsEarly result) (f : α → β) :
    EndsEarly (result.map f) := by
  obtain ⟨fault, rfl, hend⟩ := h
  exact ⟨fault, rfl, hend⟩

theorem EndsEarly.andThen {read : Reader FaultCause α} {next : α → Reader FaultCause β}
    (h : EndsEarly (read s)) : EndsEarly (read.andThen next s) := by
  obtain ⟨fault, hfault, hend⟩ := h
  exact ⟨fault, by rw [Reader.andThen, hfault], hend⟩

namespace Takes

variable {read : Reader FaultCause α} {value : α}

theorem nil (h : ∀ s, read s = .ok (value, s)) : Takes read [] value where
  whole := h
  cut := by
    intro before missing hsplit hmissing
    exact absurd (List.append_eq_nil_iff.mp hsplit).2 hmissing

theorem ne_nil (h : Takes read used value) (empty : EndsEarly (read [])) : used ≠ [] := by
  rintro rfl
  obtain ⟨fault, hfault, -⟩ := empty
  have hread := h.whole []
  rw [List.append_nil, hfault] at hread
  cases hread

/-- One character, and then what the reader takes after it. -/
theorem cons (empty : EndsEarly (read [])) (h : Takes (fun s => read (c :: s)) used value) :
    Takes read (c :: used) value where
  whole := h.whole
  cut := by
    intro before missing hsplit hmissing
    cases before with
    | nil => exact empty
    | cons d before =>
      rw [List.cons_append, List.cons.injEq] at hsplit
      obtain ⟨rfl, hsplit⟩ := hsplit
      exact h.cut before missing hsplit hmissing

theorem map (h : Takes read used value) (f : α → β) :
    Takes (fun s => (read s).map fun (v, s) => (f v, s)) used (f value) where
  whole := by
    intro after
    rw [h.whole]
    rfl
  cut := by
    intro before missing hsplit hmissing
    exact (h.cut before missing hsplit hmissing).map _

/-- Two parts, of which the second need not end well. -/
theorem needsAll_andThen {next : α → Reader FaultCause β} (h : Takes read used value)
    (hnext : NeedsAll (next value) more) : NeedsAll (read.andThen next) (used ++ more) := by
  intro before missing hsplit hmissing
  rcases List.append_eq_append_iff.mp hsplit with ⟨left, hused, hrest⟩ | ⟨left, rfl, hrest⟩
  · by_cases hleft : left = []
    · rw [hleft, List.append_nil] at hused
      rw [hleft, List.nil_append] at hrest
      have hread := h.whole []
      rw [List.append_nil, hused] at hread
      rw [Reader.andThen, hread]
      exact hnext [] missing hrest hmissing
    · exact (h.cut before left hused.symm hleft).andThen
  · rw [Reader.andThen, h.whole]
    exact hnext left missing hrest.symm hmissing

/-- Two parts, of which the second is read as the value of the first says. -/
theorem andThen {next : α → Reader FaultCause β} {last : β} (h : Takes read used value)
    (hnext : Takes (next value) more last) : Takes (read.andThen next) (used ++ more) last where
  whole := by
    intro after
    rw [Reader.andThen, List.append_assoc, h.whole]
    exact hnext.whole after
  cut := h.needsAll_andThen hnext.cut

/-- White space at the front is taken along by a reader that passes over it. -/
theorem blanks {blank : List Char} (hblank : ∀ c ∈ blank, isSpace c = true) (hc : isSpace c = false)
    (hread : ∀ s, read (skipSpace s) = read s) (empty : EndsEarly (read []))
    (h : Takes read (c :: used) value) : Takes read (blank ++ c :: used) value where
  whole := by
    intro after
    have hskip : skipSpace (blank ++ c :: used ++ after) = c :: used ++ after := by
      rw [skipSpace, List.append_assoc, List.dropWhile_append_of_pos hblank, List.cons_append,
        List.dropWhile_cons_of_neg (by simp [hc])]
    rw [← hread, hskip]
    exact h.whole after
  cut := by
    intro before missing hsplit hmissing
    rw [← hread]
    rcases List.append_eq_append_iff.mp hsplit with ⟨left, hblanks, -⟩ | ⟨left, rfl, hrest⟩
    · have hskip : skipSpace before = [] := by
        rw [skipSpace, List.dropWhile_eq_nil_iff]
        intro d hd
        exact hblank d (by rw [hblanks]; exact List.mem_append_left left hd)
      rw [hskip]
      exact empty
    · have hskip : read (skipSpace (blank ++ left)) = read left := by
        rw [skipSpace, List.dropWhile_append_of_pos hblank]
        exact hread left
      rw [hskip]
      exact h.cut left missing hrest.symm hmissing

end Takes

/-- What white space leaves, and the white space. -/
theorem exists_blanks (s : List Char) :
    ∃ blank, s = blank ++ skipSpace s ∧ ∀ c ∈ blank, isSpace c = true := by
  refine ⟨s.takeWhile isSpace, List.takeWhile_append_dropWhile.symm, ?_⟩
  intro c hc
  exact List.mem_takeWhile_imp hc

theorem isSpace_of_skipSpace (h : skipSpace s = c :: rest) : isSpace c = false := by
  have hhead := List.head?_dropWhile_not isSpace s
  rw [← skipSpace, h] at hhead
  simpa using hhead

/-! ## Words -/

theorem takes_word (letters : List Char) : Takes (readWord letters) letters () := by
  induction letters with
  | nil => exact .nil fun s => rfl
  | cons letter letters ih =>
    refine .cons ⟨_, rfl, rfl⟩ ?_
    have hread : (fun s => readWord (letter :: letters) (letter :: s)) = readWord letters := by
      funext s
      rw [readWord, if_pos rfl]
    rwa [hread]

theorem eq_append_of_readWord {letters : List Char} (h : readWord letters s = .ok ((), rest)) :
    s = letters ++ rest := by
  fun_induction readWord letters s with
  | case1 s =>
    cases h
    rfl
  | case2 => cases h
  | case3 letters c s ih => rw [ih h, List.cons_append]
  | case4 => cases h

/-! ## Escapes -/

def readQuad : Reader FaultCause Nat := fun s => (hexQuad s).map fun n => (n, s.drop 4)

def readCodeUnit : Reader FaultCause Char :=
  fun s => (codeUnitEscape s).map fun (c, taken) => (c, s.drop taken)

def readLowSurrogate (high : Nat) : Reader FaultCause Char :=
  fun s => (lowSurrogate high s).map fun (c, _) => (c, s.drop 6)

/-- Digits of any base take one byte. -/
theorem utf8Size_of_digit? {base n : Nat} (h : Number.digit? base c = some n) :
    c.utf8Size = 1 := by
  have hclass : c.isDigit ∨ ('a' ≤ c ∧ c ≤ 'z') ∨ 'A' ≤ c ∧ c ≤ 'Z' := by
    by_contra hnone
    rw [not_or, not_or] at hnone
    simp [Number.digit?, hnone.1, hnone.2.1, hnone.2.2] at h
  have hascii : c.toNat ≤ 127 := by
    simp only [Char.isDigit, Char.le_def, Bool.and_eq_true, decide_eq_true_eq, ge_iff_le,
      UInt32.le_iff_toNat_le] at hclass
    have h9 : '9'.val.toNat = 57 := rfl
    have hz : 'z'.val.toNat = 122 := rfl
    have hZ : 'Z'.val.toNat = 90 := rfl
    have hc : c.toNat = c.val.toNat := rfl
    have h57 : (57 : UInt32).toNat = 57 := rfl
    omega
  exact Char.utf8Size_eq_one_iff.mpr hascii

/-- Four digits are read at once, and fewer are too few. -/
theorem exists_takes_quad {n : Nat} (h : readQuad s = .ok (n, rest)) :
    ∃ used, s = used ++ rest ∧ Takes readQuad used n := by
  rw [readQuad, hexQuad] at h
  split at h
  · rename_i value hquad
    cases h
    match s, hquad with
    | a :: b :: c :: d :: s, hquad =>
      refine ⟨[a, b, c, d], rfl, ?_, ?_⟩
      · intro after
        have hafter : hexQuad? (a :: b :: c :: d :: after) = some n := hquad
        simp [readQuad, hexQuad, hafter, Except.map]
      · intro before missing hsplit hmissing
        simp only [hexQuad?, Option.bind_eq_bind, Option.bind_eq_some_iff] at hquad
        obtain ⟨_, ha, _, hb, _, hc, -⟩ := hquad
        have hshort : hexQuad? before = none ∧ byteLength before < 4 := by
          match before, hsplit with
          | [], _ => exact ⟨rfl, by decide⟩
          | [_], hsplit =>
            cases hsplit
            simp [hexQuad?, utf8Size_of_digit? ha]
          | [_, _], hsplit =>
            cases hsplit
            simp [hexQuad?, utf8Size_of_digit? ha, utf8Size_of_digit? hb]
          | [_, _, _], hsplit =>
            cases hsplit
            simp [hexQuad?, utf8Size_of_digit? ha, utf8Size_of_digit? hb, utf8Size_of_digit? hc]
          | [_, _, _, _], hsplit =>
            cases hsplit
            exact absurd rfl hmissing
        refine ⟨⟨.endInString, 0⟩, ?_, rfl⟩
        simp [readQuad, hexQuad, hshort, Except.map]
  · split at h <;> cases h

/-- A pair is a backslash, a letter and four more digits. -/
theorem readLowSurrogate_escape (high : Nat) :
    (fun s => readLowSurrogate high ('\\' :: 'u' :: s)) =
      readQuad.andThen fun low s =>
        if isLowSurrogate low then
          .ok (.ofNat (0x10000 + (high - 0xD800) * 0x400 + (low - 0xDC00)), s)
        else .error (.here .loneSurrogate s) := by
  funext s
  simp only [readLowSurrogate, lowSurrogate, readQuad, Reader.andThen]
  cases hexQuad s with
  | error fault => rfl
  | ok low => by_cases hlow : isLowSurrogate low = true <;> simp [hlow, Except.map]

theorem exists_escape_of_lowSurrogate {high : Nat} (h : readLowSurrogate high s = .ok (c, rest)) :
    ∃ t, s = '\\' :: 'u' :: t := by
  rw [readLowSurrogate, lowSurrogate.eq_def] at h
  split at h
  · cases h
  · split_ifs at h with hslash
    · cases h
    · split at h
      · cases h
      · split_ifs at h with hletter
        · cases h
        · rw [not_not] at hslash hletter
          rw [hslash, hletter]
          exact ⟨_, rfl⟩

theorem exists_takes_lowSurrogate {high : Nat} (h : readLowSurrogate high s = .ok (c, rest)) :
    ∃ used, s = used ++ rest ∧ Takes (readLowSurrogate high) used c := by
  obtain ⟨t, rfl⟩ := exists_escape_of_lowSurrogate h
  have hescape := congrFun (readLowSurrogate_escape high) t
  rw [h] at hescape
  obtain ⟨low, t', hquad, hlow⟩ := andThen_eq_ok_iff.mp hescape.symm
  obtain ⟨used, rfl, htakes⟩ := exists_takes_quad hquad
  split_ifs at hlow with hrange
  rw [Except.ok.injEq, Prod.mk.injEq] at hlow
  obtain ⟨rfl, rfl⟩ := hlow
  refine ⟨'\\' :: 'u' :: (used ++ []), by simp, .cons ⟨_, rfl, rfl⟩ (.cons ⟨_, rfl, rfl⟩ ?_)⟩
  rw [readLowSurrogate_escape]
  exact htakes.andThen (.nil fun s => if_pos hrange)

/-- Both halves of a pair take ten characters after the first letter. -/
theorem taken_of_lowSurrogate {high taken : Nat} (h : lowSurrogate high s = .ok (c, taken)) :
    taken = 10 := by
  have hread : readLowSurrogate high s = .ok (c, s.drop 6) := by
    rw [readLowSurrogate, h]
    rfl
  obtain ⟨t, rfl⟩ := exists_escape_of_lowSurrogate hread
  simp only [lowSurrogate] at h
  cases hquad : hexQuad t with
  | error fault => simp [hquad] at h
  | ok low =>
    by_cases hlow : isLowSurrogate low = true
    · simp only [hquad, hlow] at h
      simp at h
      exact h.2.symm
    · simp [hquad, hlow] at h

theorem readCodeUnit_eq :
    readCodeUnit = readQuad.andThen fun n s =>
      if isLowSurrogate n then .error (.here .loneSurrogate s)
      else if isHighSurrogate n then readLowSurrogate n s
      else .ok (.ofNat n, s) := by
  funext s
  simp only [readCodeUnit, codeUnitEscape, readQuad, Reader.andThen]
  cases hexQuad s with
  | error fault => rfl
  | ok n =>
    by_cases hlow : isLowSurrogate n = true
    · simp [hlow, Except.map]
    · by_cases hhigh : isHighSurrogate n = true
      · simp only [hlow, hhigh, readLowSurrogate, Except.map, if_true, if_false,
          Bool.false_eq_true]
        cases hpair : lowSurrogate n (s.drop 4) with
        | error fault => rfl
        | ok got =>
          obtain ⟨c, taken⟩ := got
          obtain rfl := taken_of_lowSurrogate hpair
          simp only [List.drop_drop]
      · simp [hlow, hhigh, Except.map]

theorem exists_takes_codeUnit (h : readCodeUnit s = .ok (c, rest)) :
    ∃ used, s = used ++ rest ∧ Takes readCodeUnit used c := by
  rw [readCodeUnit_eq] at h ⊢
  obtain ⟨n, t, hquad, hn⟩ := andThen_eq_ok_iff.mp h
  obtain ⟨used, rfl, htakes⟩ := exists_takes_quad hquad
  split_ifs at hn with hlow hhigh
  · obtain ⟨more, rfl, hmore⟩ := exists_takes_lowSurrogate hn
    refine ⟨used ++ more, (List.append_assoc ..).symm, htakes.andThen ?_⟩
    simpa only [hlow, hhigh, if_false, if_true, Bool.false_eq_true] using hmore
  · cases hn
    exact ⟨used ++ [], by simp, htakes.andThen (.nil fun s => by simp [hlow, hhigh])⟩

/-! ## Strings -/

theorem Takes.consRead {read : Reader FaultCause (List Char)} {cs : List Char}
    (h : Takes read used cs) (c : Char) : Takes (fun s => consRead c (read s)) used (c :: cs) where
  whole := by
    intro after
    rw [h.whole]
    rfl
  cut := by
    intro before missing hsplit hmissing
    obtain ⟨fault, hfault, hend⟩ := h.cut before missing hsplit hmissing
    exact ⟨fault, by simp only [hfault]; rfl, hend⟩

theorem stringRest_quote (s : List Char) : stringRest ('"' :: s) = .ok ([], s) := by
  rw [stringRest.eq_def]
  rfl

theorem stringRest_plain (hquote : c ≠ '"') (hcontrol : ¬c.toNat < 0x20) (hslash : c ≠ '\\') :
    (fun s => stringRest (c :: s)) = fun s => consRead c (stringRest s) := by
  funext s
  rw [stringRest.eq_def]
  simp only [if_neg hquote, if_neg hcontrol, if_pos hslash]

theorem stringRest_short {letter : Char} (h : shortEscape? letter = some c) :
    (fun s => stringRest ('\\' :: letter :: s)) = fun s => consRead c (stringRest s) := by
  funext s
  rw [stringRest.eq_def]
  simp [h]

theorem stringRest_codeUnit : (fun s => stringRest ('\\' :: 'u' :: s)) =
    readCodeUnit.andThen fun c s => consRead c (stringRest s) := by
  funext s
  have hletter : shortEscape? 'u' = none := rfl
  rw [stringRest.eq_def]
  simp only [hletter, readCodeUnit, Reader.andThen]
  cases codeUnitEscape s <;> simp [Except.map]

theorem exists_takes_stringRest {cs : List Char} (h : stringRest s = .ok (cs, rest)) :
    ∃ used, s = used ++ rest ∧ Takes stringRest used cs := by
  have hempty : EndsEarly (stringRest []) := ⟨_, by rw [stringRest], rfl⟩
  have hslash : EndsEarly (stringRest ['\\']) := ⟨_, by rw [stringRest.eq_def]; rfl, rfl⟩
  fun_induction stringRest s generalizing cs with
  | case1 => cases h
  | case2 s =>
    cases h
    exact ⟨['"'], rfl, .cons hempty (.nil stringRest_quote)⟩
  | case3 => cases h
  | case4 c s hquote hcontrol hplain ih =>
    obtain ⟨others, hothers, rfl⟩ := consRead_eq_ok_iff.mp h
    obtain ⟨used, rfl, htakes⟩ := ih hothers
    refine ⟨c :: used, rfl, .cons hempty ?_⟩
    rw [stringRest_plain hquote hcontrol hplain]
    exact htakes.consRead c
  | case5 => cases h
  | case6 c hquote hcontrol hplain letter s escaped hescape ih =>
    obtain ⟨others, hothers, rfl⟩ := consRead_eq_ok_iff.mp h
    obtain ⟨used, rfl, htakes⟩ := ih hothers
    obtain rfl := not_not.mp hplain
    refine ⟨'\\' :: letter :: used, rfl, .cons hempty (.cons hslash ?_)⟩
    rw [stringRest_short hescape]
    exact htakes.consRead escaped
  | case7 => cases h
  | case8 c hquote hcontrol hplain s escaped taken hescape _ ih =>
    obtain ⟨others, hothers, rfl⟩ := consRead_eq_ok_iff.mp h
    obtain ⟨used, hused, htakes⟩ := ih hothers
    obtain rfl := not_not.mp hplain
    have hunit : readCodeUnit s = .ok (escaped, s.drop taken) := by
      rw [readCodeUnit, hescape]
      rfl
    obtain ⟨code, hcode, htakesCode⟩ := exists_takes_codeUnit hunit
    refine ⟨'\\' :: 'u' :: (code ++ used), ?_, .cons hempty (.cons hslash ?_)⟩
    · rw [hcode, hused]
      simp
    · rw [stringRest_codeUnit]
      exact htakesCode.andThen (htakes.consRead escaped)
  | case9 => cases h

theorem exists_takes_string {text : String} (h : readString s = .ok (text, rest)) :
    ∃ used, s = used ++ rest ∧ Takes readString used text := by
  have hread : readString = fun s => (stringRest s).map (Prod.map String.ofList id) := by
    funext s
    rw [readString]
    cases stringRest s <;> rfl
  rw [hread] at h ⊢
  obtain ⟨⟨cs, left⟩, hrest, hvalue⟩ := map_eq_ok_iff.mp h
  cases hvalue
  obtain ⟨used, rfl, htakes⟩ := exists_takes_stringRest hrest
  exact ⟨used, rfl, htakes.map String.ofList⟩

end FakeData.Json
