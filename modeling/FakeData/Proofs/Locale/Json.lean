import FakeData.Locale.Json
import FakeData.Proofs.Json.Skip

/-!
# Locales that are read from JSON texts

A locale is read from every object that gives its two codes once, among whatever other members and
in either order, and from the list of the two codes. What is written is one of these objects.
-/
namespace FakeData.LocaleRecord

open Json

variable {α : Type} {s rest : List Char} {ts : List Token} {codes : Codes α} {value : α}
  {code key text : String} {v : Json} {members : List (String × Json)} {locale : Locale}
  {parts : Parts} {first : Bool} {fuel : Nat}

/-! ## Codes -/

theorem exists_readNull (found : Lexes s (.scalar .null :: ts) rest) :
    ∃ next, readNull s = .ok next ∧ Lexes next ts rest := by
  obtain ⟨next, htoken, hnext⟩ := lexes_cons_iff.mp found
  obtain ⟨c, after, hs, hscalar⟩ := token?_eq_scalar_iff.mp htoken
  rw [scalar?] at hscalar
  split_ifs at hscalar with hn
  · obtain ⟨_, hword, hrest⟩ := toOption_map_eq_some_iff.mp hscalar
    cases hrest
    refine ⟨_, ?_, hnext⟩
    rw [readNull, hs]
    simp only [if_pos hn, hword]
    rfl
  all_goals simp at hscalar

theorem readColon_of_skipSpace (h : skipSpace s = ':' :: rest) : readColon s = .ok rest := by
  rw [readColon, h]
  rfl

/-- The two forms of a code. -/
inductive WritesCode (code : String) : Json → Prop where
  | text : WritesCode code (.string code)
  | key : WritesCode code (.object [(code, .null)])

theorem readCodeText_of_readString (h : readString s = .ok (code, rest))
    (known : codes.ofCode? code = some value) : readCodeText codes s = .ok (value, rest) := by
  rw [readCodeText, h]
  simp only [known]

theorem readCode_of_lexes (written : WritesCode code v) (known : codes.ofCode? code = some value)
    (found : Lexes s v.tokens rest) : readCode codes s = .ok (value, rest) := by
  cases written with
  | text =>
    obtain ⟨after, next, hs, hstring, hnext⟩ := exists_readString_of_lexes found
    cases hnext
    rw [readCode, hs]
    exact readCodeText_of_readString hstring known
  | key =>
    have htokens : Lexes s [.mark .openObject, .scalar (.string code), .mark .colon, .scalar .null,
        .mark .closeObject] rest := found
    obtain ⟨inside, hopen, htokens⟩ := lexes_mark_iff.mp htokens
    obtain ⟨text, behind, hquote, hstring, htokens⟩ := exists_readString_of_lexes htokens
    obtain ⟨after, hcolon, htokens⟩ := lexes_mark_iff.mp htokens
    obtain ⟨last, hnull, htokens⟩ := exists_readNull htokens
    obtain ⟨_, hclose, ⟨⟩⟩ := lexes_mark_iff.mp htokens
    simp [readCode, readCodeKey, hopen, hquote, hclose, hnull, Mark.char, bind, Except.bind, pure,
      Except.pure, readCodeText_of_readString hstring known, readColon_of_skipSpace hcolon]

/-! ## Objects -/

/-- A field is there already, or else the members give its code once. -/
def GivesOnce (members : List (String × Json)) (key code : String) (there : Option α)
    (value : α) : Prop :=
  there = some value ∧ members.filter (·.1 = key) = [] ∨
    there = none ∧ ∃ v, members.filter (·.1 = key) = [(key, v)] ∧ WritesCode code v

variable {there : Option α}

theorem givesOnce_nil (h : GivesOnce [] key code there value) : there = some value := by
  rcases h with ⟨hthere, -⟩ | ⟨-, v, hfilter, -⟩
  · exact hthere
  · cases hfilter

theorem GivesOnce.of_other {other : String} (hother : other ≠ key)
    (h : GivesOnce ((other, v) :: members) key code there value) :
    GivesOnce members key code there value := by
  rwa [GivesOnce, List.filter_cons_of_neg (by simp [hother])] at h

/-- The code is given here and nowhere else. -/
theorem GivesOnce.of_key (h : GivesOnce ((key, v) :: members) key code there value) :
    there = none ∧ WritesCode code v ∧ GivesOnce members key code (some value) value := by
  rw [GivesOnce, List.filter_cons_of_pos (by simp)] at h
  rcases h with ⟨-, hfilter⟩ | ⟨hthere, _, hfilter, written⟩
  · cases hfilter
  · obtain ⟨hmember, hothers⟩ := List.cons.inj hfilter
    cases hmember
    exact ⟨hthere, written, .inl ⟨rfl, hothers⟩⟩

theorem ofCode?_country (country : Country) : countries.ofCode? country.code = some country := by
  cases country <;> rfl

theorem ofCode?_language (language : Language) :
    languages.ofCode? language.code = some language := by
  cases language <;> rfl

variable {colon after : List Char}

theorem readField_country {country : Country} {tongue : Option Language}
    (written : WritesCode country.code v) (hcolon : readColon colon = .ok after)
    (found : Lexes after v.tokens rest) :
    readField ⟨none, tongue⟩ "country" colon = .ok (⟨some country, tongue⟩, rest) := by
  have hcode := readCode_of_lexes written (ofCode?_country country) found
  rw [readField, hcolon]
  simp [bind, Except.bind, pure, Except.pure, hcode]

theorem readField_language {land : Option Country} {language : Language}
    (written : WritesCode language.code v) (hcolon : readColon colon = .ok after)
    (found : Lexes after v.tokens rest) :
    readField ⟨land, none⟩ "language" colon = .ok (⟨land, some language⟩, rest) := by
  have hcode := readCode_of_lexes written (ofCode?_language language) found
  rw [readField, hcolon]
  simp [bind, Except.bind, pure, Except.pure, hcode]

/-- Another value is passed over, however deep it is nested. -/
theorem readField_other (country : key ≠ "country") (language : key ≠ "language")
    (hcolon : readColon colon = .ok after) (found : Lexes after v.tokens rest) :
    readField parts key colon = .ok (parts, rest) := by
  rw [readField, if_neg country, if_neg language, hcolon]
  simp [bind, Except.bind, pure, Except.pure, skipValue_of_lexes found, lift]

theorem exists_readFields_member (found : Lexes s
      (lead first ++ (.scalar (.string key) :: .mark .colon :: v.tokens)) rest) :
    ∃ colon after, readColon colon = .ok after ∧ Lexes after v.tokens rest ∧
      ∀ fuel parts, readFields (fuel + 1) first parts s =
        (readField parts key colon).bind fun (parts, s) => readFields fuel false parts s := by
  obtain ⟨next, hnext, hmember⟩ :=
    (Enclosure.exists_object_next_iff (isPart_member key v)).mpr found
  obtain ⟨behind, colon, hquote, hstring, hvalue⟩ := exists_readString_of_lexes hmember
  obtain ⟨after, hcolon, hvalue⟩ := lexes_mark_iff.mp hvalue
  rw [Enclosure.skipSpace_of_next (by decide) hnext] at hquote
  subst hquote
  refine ⟨colon, after, readColon_of_skipSpace hcolon, hvalue, fun fuel parts => ?_⟩
  rw [readFields, hnext]
  simp only [hstring]
  cases readField parts key colon <;> rfl

theorem readFields_of_givesOnce
    (country : GivesOnce members "country" locale.country.code parts.country locale.country)
    (language : GivesOnce members "language" locale.language.code parts.language locale.language)
    (found : Lexes s (remaining .closeObject first (memberTokens members)) rest)
    (enough : s.length < fuel) : readFields fuel first parts s = .ok (locale, rest) := by
  induction members generalizing parts first s fuel with
  | nil =>
    obtain ⟨fuel, rfl⟩ : ∃ left, fuel = left + 1 := ⟨fuel - 1, by omega⟩
    have hclose : skipSpace s = Enclosure.object.close :: rest := lexes_remaining_nil_iff.mp found
    obtain ⟨land, tongue⟩ := parts
    obtain rfl : land = _ := givesOnce_nil country
    obtain rfl : tongue = _ := givesOnce_nil language
    rw [readFields, Enclosure.next_eq_end_iff.mpr hclose]
    rfl
  | cons member members ih =>
    obtain ⟨key, v⟩ := member
    obtain ⟨next, hlead, hothers⟩ := lexes_remaining_cons_iff.mp found
    have hshorter := length_lt_of_lead (isPart_member key v) hlead
    obtain ⟨colon, after, hcolon, hv, hread⟩ := exists_readFields_member hlead
    obtain ⟨fuel, rfl⟩ : ∃ left, fuel = left + 1 := ⟨fuel - 1, by omega⟩
    rw [hread]
    obtain ⟨land, tongue⟩ := parts
    by_cases hcountry : key = "country"
    · subst hcountry
      obtain ⟨rfl, written, country⟩ := country.of_key
      rw [readField_country written hcolon hv]
      exact ih country (language.of_other (by decide)) hothers (by omega)
    · by_cases hlanguage : key = "language"
      · subst hlanguage
        obtain ⟨rfl, written, language⟩ := language.of_key
        rw [readField_language written hcolon hv]
        exact ih (country.of_other hcountry) language hothers (by omega)
      · rw [readField_other hcountry hlanguage hcolon hv]
        exact ih (country.of_other hcountry) (language.of_other hlanguage) hothers (by omega)

/-! ## Texts -/

theorem ofJson_of_readRecord (h : readRecord text.toList = .ok (locale, rest))
    (blank : skipSpace rest = []) : ofJson text = .ok locale := by
  rw [ofJson, h]
  simp only [blank]

/-- A locale is read from an object that gives each code once, whatever its other members are. -/
theorem ofJson_of_spells_object {country language : Json} (spelled : Spells text (.object members))
    (hcountry : members.filter (·.1 = "country") = [("country", country)])
    (hlanguage : members.filter (·.1 = "language") = [("language", language)])
    (writtenCountry : WritesCode locale.country.code country)
    (writtenLanguage : WritesCode locale.language.code language) : ofJson text = .ok locale := by
  obtain ⟨rest, found, blank⟩ := spelled
  obtain ⟨after, hs, hmembers⟩ := lexes_object_iff.mp found
  refine ofJson_of_readRecord ?_ blank
  rw [readRecord, hs]
  exact readFields_of_givesOnce (.inr ⟨rfl, country, hcountry, writtenCountry⟩)
    (.inr ⟨rfl, language, hlanguage, writtenLanguage⟩) hmembers (Nat.lt_succ_self _)

example : ofJson "\x7b\"x\":[\x7b\x7d],\"language\":\"fr\",\"country\":\x7b\"ca\":null\x7d\x7d" =
    .ok ⟨.canada, .french⟩ := by
  decide +kernel

theorem readItem_of_lexes {before : Nat} (written : WritesCode code v)
    (known : codes.ofCode? code = some value)
    (found : Lexes s (lead (before == 0) ++ v.tokens) rest) :
    readItem codes before s = .ok (value, rest) := by
  obtain ⟨next, hnext, hv⟩ := (Enclosure.exists_list_next_iff (isPart_tokens_of_list v)).mpr found
  rw [readItem, hnext]
  exact readCode_of_lexes written known hv

/-- A locale is read from the list of its codes. -/
theorem ofJson_of_spells_list {country language : Json}
    (spelled : Spells text (.array [country, language]))
    (hcountry : WritesCode locale.country.code country)
    (hlanguage : WritesCode locale.language.code language) : ofJson text = .ok locale := by
  obtain ⟨rest, found, blank⟩ := spelled
  obtain ⟨after, hs, hitems⟩ := lexes_array_iff.mp found
  obtain ⟨next, hfirst, hitems⟩ := lexes_remaining_cons_iff.mp hitems
  obtain ⟨last, hsecond, hclose⟩ := lexes_remaining_cons_iff.mp hitems
  have hclose : skipSpace last = ']' :: rest := lexes_remaining_nil_iff.mp hclose
  refine ofJson_of_readRecord ?_ blank
  rw [readRecord, hs]
  simp [readList, readListEnd, bind, Except.bind, pure, Except.pure, hclose,
    @readItem_of_lexes _ _ _ _ _ _ _ 0 hcountry (ofCode?_country _) hfirst,
    @readItem_of_lexes _ _ _ _ _ _ _ 1 hlanguage (ofCode?_language _) hsecond]

theorem spells_toJson (locale : Locale) : Spells (toJson locale)
    (.object [("country", .string locale.country.code),
      ("language", .string locale.language.code)]) := by
  refine (read_any_iff_spells.mp ?_).1
  obtain ⟨country, language⟩ := locale
  cases country <;> cases language <;> decide +kernel

/-- What is written is read back as the same locale. -/
theorem ofJson_toJson (locale : Locale) : ofJson (toJson locale) = .ok locale :=
  ofJson_of_spells_object (spells_toJson locale) rfl rfl .text .text

end FakeData.LocaleRecord
