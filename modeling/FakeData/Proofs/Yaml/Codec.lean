import FakeData.Proofs.Number
import FakeData.Proofs.Yaml.Record

/-!
# Values that are read back

A value is written as a scalar and read back from it: texts in any style, numbers by their digits,
and values that may be left out.
-/
namespace FakeData.Yaml

open Number (isDigit_of_mem_toDigits)

variable {α : Type} {c : Char} {s : List Char}

/-! ## What is printed -/

/-- All characters of the text are written as they are. -/
def Printed (s : List Char) : Prop := ∀ c ∈ s, isPrintable c = true

@[simp] theorem printed_nil : Printed [] := by
  simp [Printed]

@[simp] theorem printed_cons : Printed (c :: s) ↔ isPrintable c = true ∧ Printed s :=
  List.forall_mem_cons

@[simp] theorem printed_append {t : List Char} : Printed (s ++ t) ↔ Printed s ∧ Printed t :=
  List.forall_mem_append

/-- A literal text is printed. -/
theorem printed_of_all (h : s.all isPrintable = true) : Printed s := List.all_eq_true.mp h

theorem printed_singleBody (h : Printed s) (broken : Bool) : Printed (singleBody broken s) := by
  have hindent : ∀ broken : Bool, Printed (if broken then [' ', ' '] else []) := by
    intro broken
    cases broken <;> exact printed_of_all rfl
  induction s generalizing broken with
  | nil => exact hindent broken
  | cons c s ih =>
    obtain ⟨hc, hs⟩ := printed_cons.mp h
    have hquoted : Printed (if c = '\'' then ['\'', '\''] else [c]) := by
      split_ifs
      · exact printed_of_all rfl
      · exact printed_cons.mpr ⟨hc, printed_nil⟩
    rw [singleBody]
    by_cases hbreak : isBreak c = true
    · rw [if_pos hbreak]
      exact printed_cons.mpr ⟨hc, ih hs true⟩
    · rw [if_neg hbreak]
      exact printed_append.mpr ⟨printed_append.mpr ⟨hindent broken, hquoted⟩, ih hs false⟩

theorem printed_hexDigits (count n : Nat) : Printed (hexDigits count n) := by
  induction count generalizing n with
  | zero => exact printed_nil
  | succ count ih =>
    have hall : ∀ d < 16, isPrintable (Nat.digitChar d).toUpper = true := by decide
    rw [hexDigits, printed_append, printed_cons]
    exact ⟨ih _, hall _ (Nat.mod_lt _ (by decide)), printed_nil⟩

theorem isPrintable_of_escapeLetter? {letter : Char} (h : escapeLetter? c = some letter) :
    isPrintable letter = true := by
  rw [escapeLetter?.eq_def] at h
  split at h <;> cases h <;> rfl

theorem printed_escapeChar (c : Char) : Printed (escapeChar c) := by
  have hslash : isPrintable '\\' = true := rfl
  rw [escapeChar]
  split
  · rename_i letter hletter
    simp [hslash, isPrintable_of_escapeLetter? hletter]
  · split_ifs
    · exact printed_cons.mpr ⟨hslash, printed_cons.mpr ⟨rfl, printed_hexDigits _ _⟩⟩
    · exact printed_cons.mpr ⟨hslash, printed_cons.mpr ⟨rfl, printed_hexDigits _ _⟩⟩
    · exact printed_cons.mpr ⟨hslash, printed_cons.mpr ⟨rfl, printed_hexDigits _ _⟩⟩

/-- Between double quotes everything else is escaped. -/
theorem printed_doubleBody (s : List Char) : Printed (doubleBody s) := by
  intro c hc
  obtain ⟨d, -, hc⟩ := List.mem_flatMap.mp hc
  split_ifs at hc with hescaped
  · exact printed_escapeChar d c hc
  · rw [List.mem_singleton.mp hc]
    simp only [Bool.or_eq_true, Bool.not_eq_true', not_or, Bool.not_eq_false] at hescaped
    exact hescaped.1.1.1

theorem printed_literalLines (h : Printed s) (atStart : Bool) :
    Printed (literalLines atStart s) := by
  induction s generalizing atStart with
  | nil => cases atStart <;> exact printed_of_all rfl
  | cons c s ih =>
    obtain ⟨hc, hs⟩ := printed_cons.mp h
    have hspaces : Printed [' ', ' '] := printed_of_all rfl
    have hfirst : Printed [c] := printed_cons.mpr ⟨hc, printed_nil⟩
    rw [literalLines]
    split_ifs with hbreak hstart
    · exact printed_cons.mpr ⟨hc, ih hs true⟩
    · exact printed_append.mpr ⟨printed_append.mpr ⟨hspaces, hfirst⟩, ih hs false⟩
    · exact printed_append.mpr ⟨hfirst, ih hs false⟩

theorem printed_literalSigns (s : List Char) : Printed (literalSigns s) := by
  by_cases hs : s = []
  · subst hs
    exact printed_of_all rfl
  · obtain ⟨chomping, -, hsigns⟩ := exists_literalSigns hs
    have hindent : Printed (if hidesIndent s then ['2'] else []) := by
      split_ifs <;> exact printed_of_all rfl
    have hsign : Printed chomping.sign := by
      cases chomping <;> exact printed_of_all rfl
    rw [hsigns]
    exact printed_append.mpr ⟨hindent, hsign⟩

/-- Without escapes a text is printed as it is. -/
theorem printed_of_style {text : String} (h : styleOf text ≠ .double) : Printed text.toList := by
  have hsimple : isSimple text.toList = true := by
    by_contra hsimple
    rw [Bool.not_eq_true] at hsimple
    refine h ?_
    simp [styleOf, allowsSingle, allowsPlain, allowsLiteral, hsimple]
  rw [isSimple, Bool.and_eq_true] at hsimple
  exact printed_of_all hsimple.1

/-- Whatever the text is, it is written with printed characters. -/
theorem printed_writeText (text : String) : Printed (writeText text) := by
  have hnewline : isPrintable '\n' = true := rfl
  have hsingle : isPrintable '\'' = true := rfl
  have hdouble : isPrintable '"' = true := rfl
  have hbar : isPrintable '|' = true := rfl
  have hprint := @printed_of_style text
  rw [writeText]
  cases hstyle : styleOf text with
  | plain => simp [writeIn, hnewline, hprint, hstyle]
  | single =>
    have hbody := printed_singleBody (hprint (by simp [hstyle])) false
    simp [writeIn, hsingle, hnewline, hbody]
  | double =>
    simp [writeIn, hdouble, hnewline, printed_doubleBody]
  | literal =>
    have hlines := printed_literalLines (hprint (by simp [hstyle])) true
    simp [writeIn, hbar, hnewline, printed_literalSigns, hlines]

/-! ## What is read back -/

/-- Where the value stands as that of a field, it is read as this. -/
def ReadsAs (value : List Char) (read : Node → Except Mismatch α) (a : α) : Prop :=
  ∃ plain text, Lexer.ReadsValue value plain text ∧ Printed value ∧
    ∀ mark, read (.scalar mark plain text) = .ok a

/-- What is written is read back, and it does not stand for nothing. -/
def WritesBack (write : α → List Char) (read : Node → Except Mismatch α) : Prop :=
  ∀ a, ∃ plain text, Lexer.ReadsValue (write a) plain text ∧ Printed (write a) ∧
    (plain = true → text ∉ nullWords) ∧ ∀ mark, read (.scalar mark plain text) = .ok a

theorem notMem_nullWords {text : String} (h : meaning text = .text) : text ∉ nullWords := by
  intro hmem
  have hcontains : nullWords.contains text = true := List.contains_iff_mem.mpr hmem
  rw [meaning, if_pos hcontains] at h
  cases h

/-- A reader that takes the text of any scalar reads back what is written as a text. -/
theorem WritesBack.ofText {text : α → String} {read : Node → Except Mismatch α}
    (h : ∀ a mark plain, read (.scalar mark plain (text a)) = .ok a) :
    WritesBack (fun a => writeText (text a)) read := by
  intro a
  obtain ⟨plain, hread, hmeaning⟩ := Lexer.exists_readsValue (text a)
  exact ⟨plain, text a, hread, printed_writeText (text a),
    fun hplain => notMem_nullWords (hmeaning hplain), fun mark => h a mark plain⟩

theorem writesBack_code {code : α → String} {ofCode? : String → Option α}
    (h : ∀ a, ofCode? (code a) = some a) (known : List String) :
    WritesBack (fun a => writeText (code a)) (Node.readCode ofCode? known) := by
  refine WritesBack.ofText fun a mark plain => ?_
  rw [Node.readCode, h]

theorem WritesBack.readsAs {write : α → List Char} {read : Node → Except Mismatch α}
    (h : WritesBack write read) (a : α) : ReadsAs (write a) read a := by
  obtain ⟨plain, text, hvalue, hprint, -, hread⟩ := h a
  exact ⟨plain, text, hvalue, hprint, hread⟩

/-- A value that is left out is read back as such, and one that is not never is. -/
theorem WritesBack.readsAs_optional {write : α → List Char} {read : Node → Except Mismatch α}
    (h : WritesBack write read) (a? : Option α) :
    ReadsAs ((a?.map write).getD writeNothing) (Node.readOptional read) a? := by
  cases a? with
  | none =>
    have hplain : IsPlain 'n' ['u', 'l', 'l'] := isPlain_of_allowsPlain rfl
    exact ⟨true, "null", Lexer.readsValue_plain hplain, printed_of_all rfl, fun mark => rfl⟩
  | some a =>
    obtain ⟨plain, text, hvalue, hprint, hword, hread⟩ := h a
    refine ⟨plain, text, hvalue, hprint, fun mark => ?_⟩
    have hnothing : (Node.scalar mark plain text).isNothing = false := by
      cases plain with
      | false => rfl
      | true => simpa [Node.isNothing] using hword rfl
    simp [Node.readOptional, hnothing, hread, Except.map]

/-- The field has this name, and what is read from its line is the value. -/
structure Field.Holds (field : Field) (name : String) (value : List Char)
    (read : Node → Except Mismatch α) (a : α) : Prop where
  reads : field.Reads
  line : field.line = writeField name value
  named : .ofList field.name = name
  read : ∀ mark, read (.scalar mark field.plain field.text) = .ok a

theorem ReadsAs.exists_holds {value : List Char} {read : Node → Except Mismatch α} {a : α}
    {name : String} (h : ReadsAs value read a) (hname : Lexer.IsName name.toList) :
    ∃ field : Field, field.Holds name value read a := by
  obtain ⟨plain, text, hvalue, hprint, hread⟩ := h
  exact ⟨⟨name.toList, value, plain, text⟩, ⟨hname, hvalue, hprint⟩, rfl, String.ofList_toList,
    hread⟩

/-- A field is set to its value in a record that reads it in this way. -/
theorem Schema.Sets.field {σ : Type} {schema : Schema σ} {fields : List Field} {field : Field}
    {name : String} {value : List Char} {read : Node → Except Mismatch α} {a : α}
    {present : List String} {before after : σ} {update : σ → α → σ}
    (h : field.Holds name value read a) (known : schema.fields.contains name = true)
    (new : present.contains name = false)
    (hset : ∀ node record, schema.set name node record = (read node).map (update record))
    (more : schema.Sets fields (name :: present) (update before a) after) :
    schema.Sets (field :: fields) present before after := by
  refine .cons h.named known new (fun mark => ?_) more
  rw [hset, h.read, Except.map]

/-! ## Numbers -/

theorem forall_isDigit {p : Char → Bool} (h : ∀ n < 10, p (Char.ofNat (n + 48)) = true)
    (hc : c.isDigit = true) : p c = true := by
  have hbounds : 48 ≤ c.toNat ∧ c.toNat ≤ 57 := by
    simp only [Char.isDigit, Bool.and_eq_true, decide_eq_true_eq, ge_iff_le,
      UInt32.le_iff_toNat_le] at hc
    exact hc
  have hsame : c = Char.ofNat (c.toNat - 48 + 48) := by
    rw [Nat.sub_add_cancel hbounds.1, Char.ofNat_toNat]
  rw [hsame]
  exact h _ (by omega)

/-- Whether the character stands for itself wherever it stands in a text without quotes. -/
def isOrdinary (c : Char) : Bool :=
  isPrintable c && !isBreak c && !isBlank c && !isIndicator c && c != '?' && c != ':' && c != '-'

theorem isOrdinary_of_isDigit (h : c.isDigit = true) : isOrdinary c = true :=
  forall_isDigit (by decide) h

theorem hasInnerSign_of_isOrdinary (h : ∀ d ∈ s, isOrdinary d = true) (c : Char) :
    hasInnerSign (c :: s) = false := by
  induction s generalizing c with
  | nil => rfl
  | cons d s ih =>
    obtain ⟨hd, hs⟩ := List.forall_mem_cons.mp h
    have hcolon : d ≠ ':' := by
      rintro rfl
      cases hd
    have hnumber : d ≠ '#' := by
      rintro rfl
      cases hd
    simp [hasInnerSign, hcolon, hnumber, ih hs d]

theorem isPlain_of_isOrdinary (h : ∀ d ∈ c :: s, isOrdinary d = true) : IsPlain c s := by
  have hall := h
  simp only [isOrdinary, Bool.and_eq_true, Bool.not_eq_true', bne_iff_ne] at hall
  have hc := hall c List.mem_cons_self
  have hinner := hasInnerSign_of_isOrdinary (fun d hd => h d (List.mem_cons_of_mem c hd)) c
  refine ⟨fun d hd => (hall d hd).1.1.1.1.1.1, fun d hd => (hall d hd).1.1.1.1.1.2, ?_,
    hc.1.1.1.1.2, hc.1.1.1.2, ?_, hinner⟩
  · intro d hd
    exact (hall d (List.mem_of_getLast? hd)).1.1.1.1.2
  · rintro (hquestion | hcolon | hdash)
    · exact absurd hquestion hc.1.1.2
    · exact absurd hcolon hc.1.2
    · exact absurd hdash hc.2

theorem hasNeedlessZero_toDigits (n : Nat) : hasNeedlessZero (Nat.toDigits 10 n) = false := by
  by_cases h : 0 < n
  · obtain ⟨c, s, hdigits, hc⟩ := Number.exists_toDigits h
    rw [hdigits, hasNeedlessZero.eq_def]
    split
    · rename_i heq
      cases heq
      exact absurd rfl hc
    · rfl
  · obtain rfl : n = 0 := by omega
    rfl

theorem magnitude?_toDigits (n : Nat) : magnitude? (Nat.toDigits 10 n) = some n := by
  have hdigit : ∀ a b s, Nat.toDigits 10 n = a :: b :: s → b.isDigit = true := by
    intro a b s h
    exact isDigit_of_mem_toDigits (by rw [h]; simp)
  rw [magnitude?.eq_def]
  split
  · rename_i h
    cases hdigit _ _ _ h
  · rename_i h
    cases hdigit _ _ _ h
  · rename_i h
    cases hdigit _ _ _ h
  · rw [hasNeedlessZero_toDigits, Number.digits?_toDigits]
    rfl

/-- A number of a machine word is read from its digits. -/
theorem unsigned?_toDigits (n : UInt64) : unsigned? (Nat.toDigits 10 n.toNat) = some n := by
  have hplus : Number.dropPlus (Nat.toDigits 10 n.toNat) = Nat.toDigits 10 n.toNat := by
    rw [Number.dropPlus.eq_def]
    split
    · rename_i h
      have hmem : '+' ∈ Nat.toDigits 10 n.toNat := by simp [h]
      cases isDigit_of_mem_toDigits hmem
    · rfl
  have hlt : n.toNat < 1 <<< 64 := n.toNat_lt
  rw [unsigned?, hplus, magnitude?_toDigits, Option.bind_some, if_pos hlt, UInt64.ofNat_toNat]

/-- The digits of a number are written as they are, and read back as the number. -/
theorem writesBack_unsigned :
    WritesBack (fun n : UInt64 => (toString n).toList ++ ['\n']) Node.readUnsigned := by
  intro n
  have hdigits : (toString n).toList = Nat.toDigits 10 n.toNat := by
    have hword : toString n = toString n.toNat := rfl
    simp [hword]
  obtain ⟨c, s, hcons⟩ := List.exists_cons_of_ne_nil (Number.toDigits_ne_nil n.toNat)
  have hall : ∀ d ∈ c :: s, d.isDigit = true := by
    intro d hd
    rw [← hcons] at hd
    exact isDigit_of_mem_toDigits hd
  have hplain := isPlain_of_isOrdinary fun d hd => isOrdinary_of_isDigit (hall d hd)
  have hwritten : (toString n).toList ++ ['\n'] = c :: s ++ ['\n'] := by rw [hdigits, hcons]
  refine ⟨true, .ofList (c :: s), ?_, ?_, fun _ hnothing => ?_, fun mark => ?_⟩
  · simp only [hwritten]
    exact Lexer.readsValue_plain hplain
  · simp only [hwritten]
    exact printed_append.mpr ⟨hplain.printable, printed_of_all rfl⟩
  · have hletters : ∀ word ∈ nullWords, word.toList.all Char.isDigit = true → word = "" := by
      decide
    have hempty := hletters _ hnothing (by rw [String.toList_ofList, List.all_eq_true]; exact hall)
    simp at hempty
  · rw [Node.readUnsigned, String.toList_ofList, ← hcons, unsigned?_toDigits]

end FakeData.Yaml
