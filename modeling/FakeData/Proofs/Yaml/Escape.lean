import FakeData.Proofs.Yaml.Scalar

/-!
# Escapes that are read back

Each character that is written as an escape is read back from it, so a text between double quotes
is read back whatever is in it.
-/
namespace FakeData.Yaml

variable {c letter : Char} {s t : List Char} {mark : Mark}

/-! ## Numbers of characters -/

theorem digit?_digitChar (n : Nat) :
    Number.digit? 16 (Nat.digitChar (n % 16)).toUpper = some (n % 16) := by
  have hall : ∀ d < 16, Number.digit? 16 (Nat.digitChar d).toUpper = some d := by decide
  exact hall _ (Nat.mod_lt _ (by decide))

/-- The digits of a number are read on after those of another one. -/
theorem hexNumber?_hexDigits (count more value n : Nat) (s : List Char) :
    hexNumber? (count + more) value (hexDigits count n ++ s) =
      hexNumber? more (value * 16 ^ count + n % 16 ^ count) s := by
  induction count generalizing more n s with
  | zero => simp [hexDigits, Nat.mod_one]
  | succ count ih =>
    have hvalue : (value * 16 ^ count + n / 16 % 16 ^ count) * 16 + n % 16 =
        value * 16 ^ (count + 1) + n % 16 ^ (count + 1) := by
      rw [Nat.pow_succ', Nat.mod_mul, Nat.mul_left_comm]
      omega
    rw [hexDigits, List.append_assoc, List.singleton_append, Nat.add_right_comm, Nat.add_assoc, ih,
      hexNumber?, digit?_digitChar, Option.bind_some, hvalue]

theorem length_hexDigits (count n : Nat) : (hexDigits count n).length = count := by
  induction count generalizing n with
  | zero => rfl
  | succ count ih => rw [hexDigits, List.length_append, ih, List.length_singleton]

theorem charOfCode?_toNat (c : Char) : charOfCode? c.toNat = some c := by
  have hvalid : c.toNat.isValidChar := c.valid
  rw [charOfCode?, if_pos hvalid, Char.ofNat_toNat]

/-! ## Escapes -/

theorem letterEscape?_of_escapeLetter? (h : escapeLetter? c = some letter) :
    letterEscape? letter = some c ∧ isBreak letter = false := by
  rw [escapeLetter?.eq_def] at h
  split at h <;> cases h <;> exact ⟨rfl, rfl⟩

/-- The letter and the digits stand for the character, whatever comes after them. -/
structure Spells (letter : Char) (digits : List Char) (c : Char) : Prop where
  escape : ∀ s, escape? letter (digits ++ s) = some (c, digits.length)
  inLine : isBreak letter = false

theorem spells_code {count : Nat} (hcount : codeLength? letter = some count)
    (hletter : letterEscape? letter = none) (hbreak : isBreak letter = false)
    (hc : c.toNat < 16 ^ count) : Spells letter (hexDigits count c.toNat) c where
  escape := by
    intro s
    have hnumber := hexNumber?_hexDigits count 0 0 c.toNat s
    rw [Nat.zero_mul, Nat.zero_add, Nat.add_zero, Nat.mod_eq_of_lt hc, hexNumber?] at hnumber
    simp only [escape?, hletter, hcount, Option.bind_some, hnumber, charOfCode?_toNat,
      Option.map_some, length_hexDigits]
  inLine := hbreak

theorem exists_spells (c : Char) :
    ∃ letter digits, escapeChar c = '\\' :: letter :: digits ∧ Spells letter digits c := by
  rw [escapeChar]
  split
  · rename_i letter hletter
    obtain ⟨hescape, hbreak⟩ := letterEscape?_of_escapeLetter? hletter
    refine ⟨letter, [], rfl, fun s => ?_, hbreak⟩
    simp [escape?, hescape]
  · split_ifs with hbyte hword
    · exact ⟨_, _, rfl, spells_code rfl rfl rfl hbyte⟩
    · exact ⟨_, _, rfl, spells_code rfl rfl rfl hword⟩
    · have hlong : c.toNat < 16 ^ 8 := by
        have hvalid := c.valid
        have hmax : c.toNat < 0x110000 := by
          rcases hvalid with h | ⟨-, h⟩
          · exact Nat.lt_trans h (by decide)
          · exact h
        exact Nat.lt_trans hmax (by decide)
      exact ⟨_, _, rfl, spells_code rfl rfl rfl hlong⟩

/-! ## Between double quotes -/

section

variable {gap : Gap}

theorem doubleFrom_blank (h : isBlank c = true) :
    doubleFrom gap (c :: s) mark = doubleFrom (gap.addBlank c) s (mark.past c) := by
  have hquote : c ≠ '"' := by
    rintro rfl
    cases h
  have hbreak := isBreak_of_isBlank h
  rw [doubleFrom.eq_def]
  simp [isSeparator_of_isBlank h, hquote, hbreak, h]

theorem doubleFrom_other (hquote : c ≠ '"') (hslash : c ≠ '\\') (hbreak : isBreak c = false)
    (hblank : isBlank c = false) (hmark : mark.column ≠ 0) :
    doubleFrom gap (c :: s) mark =
      prepend (gap.text ++ [c]) (doubleFrom .none s (mark.past c)) := by
  rw [doubleFrom.eq_def]
  simp [hquote, hslash, hbreak, hblank, hmark]

theorem doubleFrom_escape {digits : List Char} (h : Spells letter digits c) :
    doubleFrom gap ('\\' :: letter :: (digits ++ s)) mark =
      prepend (gap.text ++ [c]) (doubleFrom .none s (mark.right (digits.length + 2))) := by
  have hseparator : isSeparator ('\\' :: letter :: (digits ++ s)) = false :=
    isSeparator_cons (by decide) (by decide) _
  have hbreak : isBreak '\\' = false := rfl
  have hblank : isBlank '\\' = false := rfl
  rw [doubleFrom.eq_def]
  simp [hseparator, hbreak, hblank, h.inLine, h.escape]

theorem doubleFrom_close :
    doubleFrom gap ('"' :: t) mark = some (gap.text, ⟨t, mark.right 1, false⟩) := by
  have hseparator : isSeparator ('"' :: t) = false := isSeparator_cons (by decide) (by decide) t
  rw [doubleFrom.eq_def]
  simp [hseparator]

/-- All line breaks are written as escapes, so the text stays on one line. -/
theorem doubleFrom_body {blanks : List Char} (s t : List Char) (hmark : mark.column ≠ 0) :
    ∃ mark', doubleFrom (.blanks blanks) (doubleBody s ++ '"' :: t) mark =
      some (blanks ++ s, ⟨t, mark', false⟩) := by
  induction s generalizing blanks mark with
  | nil => exact ⟨mark.right 1, by simp [doubleBody, doubleFrom_close, Gap.text]⟩
  | cons c s ih =>
    rw [doubleBody, List.flatMap_cons, ← doubleBody, List.append_assoc]
    split_ifs with hescaped
    · obtain ⟨letter, digits, hchar, hspells⟩ := exists_spells c
      have hpast : (mark.right (digits.length + 2)).column ≠ 0 := by
        simp [Mark.right]
      obtain ⟨mark', hread⟩ := @ih _ [] hpast
      refine ⟨mark', ?_⟩
      rw [hchar, List.cons_append, List.cons_append, doubleFrom_escape hspells, Gap.none, hread]
      simp [prepend, Gap.text]
    · simp only [Bool.or_eq_true, Bool.not_eq_true', beq_iff_eq, not_or, Bool.not_eq_false,
        Bool.not_eq_true] at hescaped
      obtain ⟨⟨⟨hprint, hbreak⟩, hquote⟩, hslash⟩ := hescaped
      have hpast : (mark.past c).column ≠ 0 := Nat.succ_ne_zero _
      rw [List.singleton_append]
      by_cases hspace : c = ' '
      · obtain ⟨mark', hread⟩ := @ih _ (blanks ++ [c]) hpast
        have hblank : isBlank c = true := isBlank_iff.mpr (.inl hspace)
        refine ⟨mark', ?_⟩
        rw [doubleFrom_blank hblank, Gap.addBlank, hread]
        simp
      · obtain ⟨mark', hread⟩ := @ih _ [] hpast
        have hblank : isBlank c = false := by simp [isBlank_of_isPrintable hprint, hspace]
        refine ⟨mark', ?_⟩
        rw [doubleFrom_other hquote hslash hbreak hblank hmark, Gap.none, hread]
        simp [prepend, Gap.text]

end

end FakeData.Yaml
