import FakeData.Dataset
import FakeData.Proofs.Json.Parts
import FakeData.Proofs.Json.Spelling
import FakeData.Proofs.Json.Taking

/-!
# Documents that break off

What a reader takes for a value without numbers it takes as a whole, so a document that ends
before its last brace is never read, and neither is one that goes on after it.
-/
namespace FakeData.Json

variable {α β : Type} {s rest next used more blank lead : List Char} {c : Char} {e : Enclosure}
  {first : Bool} {rule : KeyRule} {inner : Option (Reader FaultCause Json)} {v : Json}
  {fuel depth : Nat} {written : List String}

/-! ## Up to the next part -/

theorem endsEarly_next (hend : e.atEnd.isEnd = true) (hblank : ∀ c ∈ blank, isSpace c = true) :
    EndsEarly (e.next first blank) := by
  have hskip : skipSpace blank = [] := List.dropWhile_eq_nil_iff.mpr hblank
  rw [Enclosure.next, hskip]
  exact ⟨_, rfl, hend⟩

/-- The characters lead to a part that starts with `c`, and nothing but an early end is found
where the text breaks off before it. -/
structure Leads (e : Enclosure) (first : Bool) (lead : List Char) (c : Char) : Prop where
  found : ∀ after, e.next first (lead ++ c :: after) = .ok (true, c :: after)
  cut : ∀ before missing, before ++ missing = lead → EndsEarly (e.next first before)

theorem skipSpace_blanks (hblank : ∀ c ∈ blank, isSpace c = true) (s : List Char) :
    skipSpace (blank ++ s) = skipSpace s := List.dropWhile_append_of_pos hblank

theorem skipSpace_of_not_isSpace (h : isSpace c = false) (s : List Char) :
    skipSpace (c :: s) = c :: s := List.dropWhile_cons_of_neg (by simp [h])

theorem leads_first (hend : e.atEnd.isEnd = true) (hblank : ∀ c ∈ blank, isSpace c = true)
    (hc : isSpace c = false) (hclose : c ≠ e.close) : Leads e true blank c where
  found := by
    intro after
    refine Enclosure.next_first_iff.mpr ⟨c, after, ?_, hclose, rfl⟩
    rw [skipSpace_blanks hblank, skipSpace_of_not_isSpace hc]
  cut := by
    intro before missing hsplit
    refine endsEarly_next hend ?_
    intro d hd
    exact hblank d (by rw [← hsplit]; exact List.mem_append_left missing hd)

theorem leads_later {blank' : List Char} (hend : e.atEnd.isEnd = true) (hcomma : e.close ≠ ',')
    (hblank : ∀ c ∈ blank, isSpace c = true) (hblank' : ∀ c ∈ blank', isSpace c = true)
    (hc : isSpace c = false) (hclose : c ≠ e.close) :
    Leads e false (blank ++ ',' :: blank') c where
  found := by
    intro after
    refine (Enclosure.next_later_iff hcomma).mpr ⟨blank' ++ c :: after, ?_,
      (leads_first hend hblank' hc hclose).found after⟩
    rw [List.append_assoc, List.cons_append, skipSpace_blanks hblank,
      skipSpace_of_not_isSpace rfl]
  cut := by
    intro before missing hsplit
    rcases List.append_eq_append_iff.mp hsplit with ⟨left, hleft, -⟩ | ⟨left, rfl, hrest⟩
    · refine endsEarly_next hend ?_
      intro d hd
      exact hblank d (by rw [hleft]; exact List.mem_append_left left hd)
    · cases left with
      | nil => exact endsEarly_next hend (by simpa using hblank)
      | cons d left =>
        rw [List.cons_append, List.cons.injEq] at hrest
        obtain ⟨rfl, rfl⟩ := hrest
        -- The comma was read, and only white space is left.
        have hskip : skipSpace (blank ++ ',' :: left) = ',' :: left := by
          rw [skipSpace_blanks hblank, skipSpace_of_not_isSpace rfl]
        have hleft : skipSpace left = [] := by
          refine List.dropWhile_eq_nil_iff.mpr ?_
          intro d hd
          exact hblank' d (List.mem_append_left missing hd)
        refine ⟨.peek .endInValue [], ?_, rfl⟩
        rw [Enclosure.next, hskip]
        simp [hcomma.symm, hleft]

theorem exists_leads (hend : e.atEnd.isEnd = true) (hcomma : e.close ≠ ',')
    (h : e.next first s = .ok (true, next)) :
    ∃ lead c after, s = lead ++ c :: after ∧ next = c :: after ∧ Leads e first lead c := by
  obtain ⟨blank, hs, hblank⟩ := exists_blanks s
  cases first with
  | true =>
    obtain ⟨c, after, hskip, hclose, rfl⟩ := Enclosure.next_first_iff.mp h
    rw [hskip] at hs
    exact ⟨blank, c, after, hs, rfl,
      leads_first hend hblank (isSpace_of_skipSpace hskip) hclose⟩
  | false =>
    obtain ⟨t, hskip, hnext⟩ := (Enclosure.next_later_iff hcomma).mp h
    obtain ⟨c, after, hskip', hclose, rfl⟩ := Enclosure.next_first_iff.mp hnext
    obtain ⟨blank', ht, hblank'⟩ := exists_blanks t
    rw [hskip'] at ht
    rw [hskip, ht] at hs
    exact ⟨blank ++ ',' :: blank', c, after, by simpa using hs, rfl,
      leads_later hend hcomma hblank hblank' (isSpace_of_skipSpace hskip') hclose⟩

/-! ## Parts one after the other -/

/-- One turn of reading a list or an object, which ends or goes on with a part and the others. -/
def turn (e : Enclosure) (first : Bool) (part : Reader FaultCause α)
    (others : α → Reader FaultCause (List α)) : Reader FaultCause (List α) :=
  Reader.andThen (e.next first) fun more =>
    if more then part.andThen fun a s => (others a s).map fun (as, s) => (a :: as, s)
    else fun s => .ok ([], s)

/-- With enough fuel a reader takes this part of a text for a value. With less it may find the
end of the text. -/
structure TakesWithin (read : Nat → Reader FaultCause α) (used : List Char) (value : α) :
    Prop where
  whole : ∀ fuel after, used.length < fuel → read fuel (used ++ after) = .ok (value, after)
  cut : ∀ fuel, NeedsAll (read fuel) used

namespace TakesWithin

variable {read : Nat → Reader FaultCause (List α)} {part : Reader FaultCause α}
  {others : Nat → α → Reader FaultCause (List α)} {a : α} {as : List α}

/-- The end of a list or an object. -/
theorem close (zero : ∀ s, EndsEarly (read 0 s))
    (succ : ∀ fuel, read (fuel + 1) = turn e first part (others fuel))
    (hend : e.atEnd.isEnd = true) (hclose : isSpace e.close = false)
    (hblank : ∀ c ∈ blank, isSpace c = true) : TakesWithin read (blank ++ [e.close]) [] where
  whole := by
    intro fuel after hfuel
    obtain ⟨fuel, rfl⟩ : ∃ n, fuel = n + 1 := ⟨fuel - 1, by omega⟩
    have hnext : e.next first (blank ++ [e.close] ++ after) = .ok (false, after) := by
      rw [Enclosure.next_eq_end_iff, List.append_assoc, skipSpace_blanks hblank]
      exact skipSpace_of_not_isSpace hclose after
    rw [succ, turn, Reader.andThen, hnext]
    rfl
  cut := by
    intro fuel before missing hsplit hmissing
    cases fuel with
    | zero => exact zero before
    | succ fuel =>
      have hbefore : ∀ c ∈ before, isSpace c = true := by
        obtain ⟨missing, last, rfl⟩ := List.eq_nil_or_concat' missing |>.resolve_left hmissing
        rw [← List.append_assoc] at hsplit
        have hinit := List.append_inj_left' hsplit rfl
        intro d hd
        exact hblank d (by rw [← hinit]; exact List.mem_append_left missing hd)
      rw [succ]
      exact (endsEarly_next hend hbefore).andThen

/-- One part more in front. -/
theorem cons (zero : ∀ s, EndsEarly (read 0 s))
    (succ : ∀ fuel, read (fuel + 1) = turn e first part (others fuel))
    (hlead : Leads e first lead c) (hpart : Takes part (c :: used) a)
    (hothers : TakesWithin (fun fuel => others fuel a) more as) :
    TakesWithin read (lead ++ (c :: used ++ more)) (a :: as) where
  whole := by
    intro fuel after hfuel
    obtain ⟨fuel, rfl⟩ : ∃ n, fuel = n + 1 := ⟨fuel - 1, by omega⟩
    have hnext := hlead.found (used ++ (more ++ after))
    have hread := hpart.whole (more ++ after)
    have hrest := hothers.whole fuel after (by simp at hfuel; omega)
    have hsplit : lead ++ (c :: used ++ more) ++ after =
        lead ++ c :: (used ++ (more ++ after)) := by
      simp
    rw [List.cons_append] at hread
    rw [succ, turn, Reader.andThen, hsplit, hnext]
    simp only [if_true, Reader.andThen, hread, hrest]
    rfl
  cut := by
    intro fuel before missing hsplit hmissing
    cases fuel with
    | zero => exact zero before
    | succ fuel =>
      rw [succ]
      rcases List.append_eq_append_iff.mp hsplit with ⟨left, hleft, -⟩ | ⟨left, rfl, hrest⟩
      · exact (hlead.cut before left hleft.symm).andThen
      · have hmap : NeedsAll (fun s => (others fuel a s).map fun (as, s) => (a :: as, s)) more := by
          intro before missing hsplit hmissing
          exact (hothers.cut fuel before missing hsplit hmissing).map _
        have hcut : NeedsAll (part.andThen fun a s =>
            (others fuel a s).map fun (as, s) => (a :: as, s)) (c :: used ++ more) :=
          hpart.needsAll_andThen hmap
        cases left with
        | nil =>
          rw [List.append_nil]
          exact (hlead.cut lead [] (List.append_nil _)).andThen
        | cons d left =>
          have hd : c = d := by simpa using congrArg List.head? hrest
          rw [turn, Reader.andThen, ← hd, hlead.found]
          exact hcut (c :: left) missing (by rw [hrest, hd]) hmissing

end TakesWithin

/-- As much fuel as there are characters is enough. -/
theorem TakesWithin.takes {read : Nat → Reader FaultCause α} {a : α}
    (h : TakesWithin read used a) : Takes (fun s => read (s.length + 1) s) used a where
  whole := by
    intro after
    exact h.whole _ after (by rw [List.length_append]; omega)
  cut := by
    intro before missing hsplit hmissing
    exact h.cut _ before missing hsplit hmissing

/-! ## Values -/

def NoNumbers (document : Json) : Prop := ∀ n, ¬PartOf (.number n) document

@[simp] theorem noNumbers_null : NoNumbers .null := by
  rintro n ⟨⟩

@[simp] theorem noNumbers_array {items : List Json} :
    NoNumbers (.array items) ↔ ∀ item ∈ items, NoNumbers item := by
  constructor
  · intro h item mem n inside
    exact h n (.item mem inside)
  · rintro h n ⟨⟩
    exact h _ ‹_› n ‹_›

@[simp] theorem noNumbers_object {members : List (String × Json)} :
    NoNumbers (.object members) ↔ ∀ member ∈ members, NoNumbers member.2 := by
  constructor
  · intro h member mem n inside
    exact h n (.member mem inside)
  · rintro h n ⟨⟩
    exact h _ ‹_› n ‹_›

/-- What the reader reads it takes, unless there are numbers in it. -/
structure TakesAll (read : Reader FaultCause Json) : Prop where
  empty : EndsEarly (read [])
  takes : ∀ s v rest, read s = .ok (v, rest) → NoNumbers v →
    ∃ used, s = used ++ rest ∧ Takes read used v

theorem readItems_succ (item : Reader FaultCause Json) (fuel : Nat) (first : Bool) :
    readItems item (fuel + 1) first =
      turn .list first item fun _ => readItems item fuel false := by
  funext s
  rw [readItems, turn, Reader.andThen]
  cases Enclosure.list.next first s with
  | error fault => rfl
  | ok part =>
    obtain ⟨_ | _, s⟩ := part
    · rfl
    · simp only [if_true, Reader.andThen]
      cases item s with
      | error fault => rfl
      | ok got =>
        dsimp only
        cases readItems item fuel false got.2 <;> rfl

theorem exists_takes_items {item : Reader FaultCause Json} (h : TakesAll item)
    {values : List Json} (hread : readItems item fuel first s = .ok (values, rest))
    (pure : ∀ v ∈ values, NoNumbers v) :
    ∃ used, s = used ++ rest ∧
      TakesWithin (fun fuel => readItems item fuel first) used values := by
  have zero : ∀ first s, EndsEarly (readItems item 0 first s) := fun first s => ⟨_, rfl, rfl⟩
  have succ := readItems_succ item
  induction fuel generalizing first s values with
  | zero => cases hread
  | succ fuel ih =>
    rcases readItems_eq_ok_iff.mp hread with
      ⟨hnext, rfl⟩ | ⟨s₁, v, s₂, others, hnext, hitem, hothers, rfl⟩
    · obtain ⟨blank, hs, hblank⟩ := exists_blanks s
      rw [Enclosure.next_eq_end_iff.mp hnext] at hs
      exact ⟨blank ++ [Enclosure.list.close], by simpa using hs,
        .close (zero first) (succ · first) rfl rfl hblank⟩
    · obtain ⟨hv, pure⟩ := List.forall_mem_cons.mp pure
      obtain ⟨lead, c, after, rfl, rfl, hlead⟩ := exists_leads rfl (by decide) hnext
      obtain ⟨used, hused, htakes⟩ := h.takes _ _ _ hitem hv
      obtain ⟨more, rfl, hmore⟩ := ih hothers pure
      cases used with
      | nil => exact absurd rfl (htakes.ne_nil h.empty)
      | cons d used =>
        rw [List.cons_append, List.cons.injEq] at hused
        obtain ⟨rfl, rfl⟩ := hused
        exact ⟨lead ++ (c :: used ++ more), by simp,
          .cons (zero first) (succ · first) hlead htakes hmore⟩

def readColon : Reader FaultCause Unit := fun s =>
  match skipSpace s with
  | [] => .error (.peek .endInObject [])
  | c :: s => if c = ':' then .ok ((), s) else .error (.peek .expectedColon (c :: s))

theorem readKey_quote : (fun s => readKey ('"' :: s)) =
    Reader.andThen readString fun key s => (readColon s).map fun (_, s) => (key, s) := by
  funext s
  simp only [readKey, Reader.andThen, ne_eq, not_true_eq_false, if_false, readColon]
  cases readString s with
  | error fault => rfl
  | ok got =>
    dsimp only
    cases skipSpace got.2 with
    | nil => rfl
    | cons c s => by_cases hc : c = ':' <;> simp [hc, Except.map]

theorem exists_takes_colon (h : readColon s = .ok ((), rest)) :
    ∃ used, s = used ++ rest ∧ Takes readColon used () := by
  have empty : EndsEarly (readColon []) := ⟨_, rfl, rfl⟩
  obtain ⟨blank, hs, hblank⟩ := exists_blanks s
  have hskip : skipSpace s = ':' :: rest := by
    rw [readColon] at h
    cases hs : skipSpace s with
    | nil => simp [hs] at h
    | cons c s =>
      by_cases hc : c = ':'
      · simp only [hs, hc, if_true, Except.ok.injEq, Prod.mk.injEq, true_and] at h
        rw [hc, h]
      · simp [hs, hc] at h
  have hcolon : Takes readColon [':'] () := .cons empty (.nil fun s => rfl)
  have hread : ∀ s, readColon (skipSpace s) = readColon s := by
    intro s
    rw [readColon, readColon, skipSpace_skipSpace]
  rw [hskip] at hs
  exact ⟨blank ++ [':'], by simpa using hs, hcolon.blanks hblank rfl hread empty⟩

theorem exists_takes_key {key : String} (h : readKey s = .ok (key, rest)) :
    ∃ c used, s = c :: used ++ rest ∧ Takes readKey (c :: used) key := by
  cases s with
  | nil => cases h
  | cons c s =>
    by_cases hc : c = '"'
    · subst hc
      have hread := congrFun readKey_quote s
      dsimp only at hread
      rw [h] at hread
      obtain ⟨key', left, hstring, hmap⟩ := andThen_eq_ok_iff.mp hread.symm
      obtain ⟨⟨⟨⟩, rest⟩, hcolon, hvalue⟩ := map_eq_ok_iff.mp hmap
      cases hvalue
      obtain ⟨used, rfl, hused⟩ := exists_takes_string hstring
      obtain ⟨more, rfl, hmore⟩ := exists_takes_colon hcolon
      refine ⟨'"', used ++ more, by simp, .cons ⟨_, rfl, rfl⟩ ?_⟩
      rw [readKey_quote]
      exact hused.andThen (hmore.map fun _ => key)
    · simp [readKey, hc] at h

def readMember (rule : KeyRule) (value : Reader FaultCause Json) (written : List String) :
    Reader FaultCause (String × Json) :=
  Reader.andThen readKey fun key => value.andThen fun v s =>
    if rule.refuses written key then .error (duplicateFault key s) else .ok ((key, v), s)

theorem readMembers_succ (rule : KeyRule) (value : Reader FaultCause Json) (fuel : Nat)
    (written : List String) : readMembers rule value (fuel + 1) written =
      turn .object written.isEmpty (readMember rule value written) fun member =>
        readMembers rule value fuel (member.1 :: written) := by
  funext s
  rw [readMembers, turn, Reader.andThen]
  cases Enclosure.object.next written.isEmpty s with
  | error fault => rfl
  | ok part =>
    obtain ⟨_ | _, s⟩ := part
    · rfl
    · simp only [if_true, Reader.andThen, readMember]
      cases readKey s with
      | error fault => rfl
      | ok named =>
        dsimp only
        cases value named.2 with
        | error fault => rfl
        | ok got =>
          by_cases hrule : rule.refuses written named.1 = true
          · simp only [hrule, if_true]
          · simp only [hrule, Bool.false_eq_true, if_false]
            cases readMembers rule value fuel (named.1 :: written) got.2 <;> rfl

theorem exists_takes_members {value : Reader FaultCause Json} (h : TakesAll value)
    {members : List (String × Json)}
    (hread : readMembers rule value fuel written s = .ok (members, rest))
    (pure : ∀ member ∈ members, NoNumbers member.2) :
    ∃ body, s = body ++ '\x7d' :: rest ∧
      TakesWithin (fun fuel => readMembers rule value fuel written) (body ++ ['\x7d'])
        members := by
  have zero : ∀ written s, EndsEarly (readMembers rule value 0 written s) :=
    fun written s => ⟨_, rfl, rfl⟩
  have succ := readMembers_succ rule value
  induction fuel generalizing written s members with
  | zero => cases hread
  | succ fuel ih =>
    rcases readMembers_eq_ok_iff.mp hread with
      ⟨hnext, rfl⟩ | ⟨s₁, key, s₂, v, s₃, others, hnext, hkey, hvalue, hrule, hothers, rfl⟩
    · obtain ⟨blank, hs, hblank⟩ := exists_blanks s
      rw [Enclosure.next_eq_end_iff.mp hnext] at hs
      exact ⟨blank, hs,
        .close (e := .object) (zero written) (succ · written) rfl rfl hblank⟩
    · obtain ⟨hv, pure⟩ := List.forall_mem_cons.mp pure
      obtain ⟨lead, c, after, rfl, rfl, hlead⟩ := exists_leads rfl (by decide) hnext
      obtain ⟨d, used, hused, htakesKey⟩ := exists_takes_key hkey
      obtain ⟨usedValue, rfl, htakesValue⟩ := h.takes _ _ _ hvalue hv
      obtain ⟨body, rfl, hmore⟩ := ih hothers pure
      rw [List.cons_append, List.cons.injEq] at hused
      obtain ⟨rfl, rfl⟩ := hused
      have hmember : Takes (readMember rule value written) (c :: used ++ (usedValue ++ []))
          (key, v) :=
        htakesKey.andThen (htakesValue.andThen (.nil fun s => by simp [hrule]))
      exact ⟨lead ++ (c :: (used ++ (usedValue ++ [])) ++ body), by simp, by
        simpa using TakesWithin.cons (zero written) (succ · written) hlead hmember hmore⟩

/-- What is read inside a value is taken, if anything is. -/
def TakesInside (inner : Option (Reader FaultCause Json)) : Prop :=
  ∀ value, inner = some value → TakesAll value

theorem valueWith_skipSpace (s : List Char) :
    valueWith rule inner (skipSpace s) = valueWith rule inner s := by
  rw [valueWith, valueWith, skipSpace_skipSpace]

theorem endsEarly_valueWith_nil : EndsEarly (valueWith rule inner []) := ⟨_, rfl, rfl⟩

theorem valueWith_null : (fun s => valueWith rule inner ('n' :: s)) =
    fun s => (readWord ['u', 'l', 'l'] s).map fun (_, s) => (.null, s) := rfl

theorem valueWith_true : (fun s => valueWith rule inner ('t' :: s)) =
    fun s => (readWord ['r', 'u', 'e'] s).map fun (_, s) => (.bool true, s) := rfl

theorem valueWith_false : (fun s => valueWith rule inner ('f' :: s)) =
    fun s => (readWord ['a', 'l', 's', 'e'] s).map fun (_, s) => (.bool false, s) := rfl

theorem valueWith_string : (fun s => valueWith rule inner ('"' :: s)) =
    fun s => (readString s).map fun (text, s) => (.string text, s) := rfl

theorem valueWith_list {item : Reader FaultCause Json} :
    (fun s => valueWith rule (some item) ('[' :: s)) = fun s =>
      (readItems item (s.length + 1) true s).map fun (items, s) => (.array items, s) := rfl

theorem valueWith_object {value : Reader FaultCause Json} :
    (fun s => valueWith rule (some value) ('\x7b' :: s)) = fun s =>
      (readMembers rule value (s.length + 1) [] s).map fun (members, s) =>
        (.object members, s) := rfl

theorem exists_takes_scalar {scalar : Scalar} (h : scalar? c s = some (scalar, rest))
    (pure : NoNumbers scalar.value) :
    ∃ used, s = used ++ rest ∧
      Takes (fun s => valueWith rule inner (c :: s)) used scalar.value := by
  rw [scalar?] at h
  split_ifs at h with hnull htrue hfalse hquote hminus hdigit
  · subst hnull
    obtain ⟨⟨⟨⟩, _⟩, hword, hvalue⟩ := toOption_map_eq_some_iff.mp h
    cases hvalue
    refine ⟨_, eq_append_of_readWord hword, ?_⟩
    rw [valueWith_null]
    exact (takes_word _).map fun _ => Json.null
  · subst htrue
    obtain ⟨⟨⟨⟩, _⟩, hword, hvalue⟩ := toOption_map_eq_some_iff.mp h
    cases hvalue
    refine ⟨_, eq_append_of_readWord hword, ?_⟩
    rw [valueWith_true]
    exact (takes_word _).map fun _ => Json.bool true
  · subst hfalse
    obtain ⟨⟨⟨⟩, _⟩, hword, hvalue⟩ := toOption_map_eq_some_iff.mp h
    cases hvalue
    refine ⟨_, eq_append_of_readWord hword, ?_⟩
    rw [valueWith_false]
    exact (takes_word _).map fun _ => Json.bool false
  · subst hquote
    obtain ⟨_, hstring, hvalue⟩ := toOption_map_eq_some_iff.mp h
    cases hvalue
    obtain ⟨used, rfl, htakes⟩ := exists_takes_string hstring
    refine ⟨used, rfl, ?_⟩
    rw [valueWith_string]
    exact htakes.map Json.string
  · obtain ⟨_, -, hvalue⟩ := toOption_map_eq_some_iff.mp h
    cases hvalue
    exact absurd .self (pure _)
  · obtain ⟨_, -, hvalue⟩ := toOption_map_eq_some_iff.mp h
    cases hvalue
    exact absurd .self (pure _)

theorem takes_valueWith (hs : skipSpace s = c :: used ++ rest)
    (h : Takes (fun s => valueWith rule inner (c :: s)) used v) :
    ∃ blank, s = blank ++ c :: used ++ rest ∧
      Takes (valueWith rule inner) (blank ++ c :: used) v := by
  obtain ⟨blank, hsplit, hblank⟩ := exists_blanks s
  rw [hs] at hsplit
  have hc : isSpace c = false := isSpace_of_skipSpace hs
  exact ⟨blank, by simpa using hsplit, Takes.blanks hblank hc valueWith_skipSpace
    endsEarly_valueWith_nil (.cons endsEarly_valueWith_nil h)⟩

/-- An object is taken up to its closing brace. -/
theorem exists_takes_object (h : TakesInside inner) {members : List (String × Json)}
    (hread : valueWith rule inner s = .ok (.object members, rest))
    (pure : NoNumbers (.object members)) :
    ∃ body, s = body ++ '\x7d' :: rest ∧
      Takes (valueWith rule inner) (body ++ ['\x7d']) (.object members) := by
  obtain ⟨value, after, rfl, hs, hread⟩ := valueWith_eq_object_iff.mp hread
  obtain ⟨body, rfl, htakes⟩ := exists_takes_members (h value rfl) hread (noNumbers_object.mp pure)
  have hs : skipSpace s = '\x7b' :: (body ++ ['\x7d']) ++ rest := by simpa using hs
  have htaken : Takes (fun s => valueWith rule (some value) ('\x7b' :: s)) (body ++ ['\x7d'])
      (.object members) := by
    rw [valueWith_object]
    exact htakes.takes.map Json.object
  obtain ⟨blank, hsplit, htaken⟩ := takes_valueWith hs htaken
  exact ⟨blank ++ '\x7b' :: body, by simpa using hsplit, by simpa using htaken⟩

theorem takesAll_valueWith (h : TakesInside inner) : TakesAll (valueWith rule inner) where
  empty := endsEarly_valueWith_nil
  takes := by
    intro s v rest hread pure
    rcases v.value_cases with ⟨scalar, rfl⟩ | ⟨items, rfl⟩ | ⟨members, rfl⟩
    · obtain ⟨c, after, hs, hscalar⟩ := valueWith_eq_scalar_iff.mp hread
      obtain ⟨used, rfl, htakes⟩ := exists_takes_scalar hscalar pure
      obtain ⟨blank, rfl, htaken⟩ := takes_valueWith hs htakes
      exact ⟨_, rfl, htaken⟩
    · obtain ⟨item, after, rfl, hs, hread⟩ := valueWith_eq_array_iff.mp hread
      obtain ⟨used, rfl, htakes⟩ := exists_takes_items (h item rfl) hread (noNumbers_array.mp pure)
      have htaken : Takes (fun s => valueWith rule (some item) ('[' :: s)) used (.array items) := by
        rw [valueWith_list]
        exact htakes.takes.map Json.array
      obtain ⟨blank, rfl, htaken⟩ := takes_valueWith hs htaken
      exact ⟨_, rfl, htaken⟩
    · obtain ⟨body, rfl, htaken⟩ := exists_takes_object h hread pure
      exact ⟨_, by simp, htaken⟩

theorem takesAll_readValue (depth : Nat) : TakesAll (readValue rule depth) := by
  induction depth with
  | zero => exact takesAll_valueWith fun _ h => by cases h
  | succ depth ih =>
    refine takesAll_valueWith fun value h => ?_
    cases h
    exact ih

/-! ## Documents -/

variable {text : String} {members : List (String × Json)} {body : List Char}

/-- The text is that of an object which is taken up to its last brace, with white space after
it. -/
theorem exists_takes_document (h : read rule text = .ok (.object members))
    (pure : NoNumbers (.object members)) :
    ∃ body blank, text.toList = body ++ '\x7d' :: blank ∧ (∀ c ∈ blank, isSpace c = true) ∧
      Takes (readValue rule maxDepth) (body ++ ['\x7d']) (.object members) := by
  obtain ⟨rest, hvalue, hrest⟩ := read_eq_ok_iff.mp h
  have hinside : TakesInside (some (readValue rule (maxDepth - 1))) := by
    intro value h
    cases h
    exact takesAll_readValue _
  obtain ⟨body, hsplit, htaken⟩ := exists_takes_object hinside hvalue pure
  exact ⟨body, rest, hsplit, List.dropWhile_eq_nil_iff.mp hrest, htaken⟩

/-- A document that breaks off ends too early. -/
theorem endsEarly_read (htaken : Takes (readValue rule maxDepth) (body ++ ['\x7d']) v)
    (h : text.toList <+: body) : EndsEarly (read rule text) := by
  obtain ⟨missing, hmissing⟩ := h
  have hsplit : text.toList ++ (missing ++ ['\x7d']) = body ++ ['\x7d'] := by
    rw [← hmissing, List.append_assoc]
  obtain ⟨fault, hfault, hend⟩ := htaken.cut _ _ hsplit (by simp)
  exact ⟨fault, by rw [read, hfault], hend⟩

/-- What follows a document is white space, or the text is not read. -/
theorem read_of_takes (htaken : Takes (readValue rule maxDepth) used v)
    (h : text.toList = used ++ rest) :
    read rule text = if skipSpace rest = [] then .ok v
      else .error (.peek .trailingCharacters (skipSpace rest)) := by
  rw [read, h, htaken.whole]
  cases hrest : skipSpace rest with
  | nil => simp [hrest]
  | cons c s => simp [hrest]

theorem isSpace_iff : isSpace c = true ↔ c ∈ [' ', '\t', '\n', '\r'] := by
  simp only [isSpace, Bool.or_eq_true, beq_iff_eq, List.mem_cons, List.not_mem_nil, or_false]
  tauto

end FakeData.Json

namespace FakeData.Dataset

open Json (isSpace skipSpace)

variable {files : Files} {path text : String} {dataset : Dataset}
  {members : List (String × Json)}

theorem load_of_readable (h : files path = .ok text.toUTF8) :
    load files path = ofText path text := by
  rw [load, Files.readText_eq_ok_iff.mpr h]

theorem load_of_fault {fault : Json.Fault} (h : files path = .ok text.toUTF8)
    (malformed : Json.readDistinct text = .error fault) : load files path =
      .error (.malformedDocument path fault.cause (.ofLeft text fault.left)) := by
  rw [load_of_readable h, ofText, malformed]

theorem exists_root_of_load (h : files path = .ok text.toUTF8)
    (loaded : load files path = .ok dataset) :
    ∃ root, Json.readDistinct text = .ok root ∧ dataset = ⟨path, root⟩ := by
  rw [load_of_readable h, ofText] at loaded
  cases hread : Json.readDistinct text with
  | error fault => simp [hread] at loaded
  | ok root =>
    simp only [hread, Except.ok.injEq] at loaded
    exact ⟨root, rfl, loaded.symm⟩

/-- An object without numbers is loaded from its text as a whole. Where the text breaks off before
the closing brace, its end comes too early; only white space may follow the brace. -/
theorem load_whole_text_only (readable : files path = .ok text.toUTF8)
    (loaded : load files path = .ok dataset) (object : dataset.root = .object members)
    (pure : Json.NoNumbers dataset.root) :
    ∃ body blank, text.toList = body ++ '\x7d' :: blank ∧
      (∀ c ∈ blank, c ∈ [' ', '\t', '\n', '\r']) ∧
      (∀ (others : Files) (start : String), start.toList <+: body →
        others path = .ok start.toUTF8 → ∃ cause position,
          load others path = .error (.malformedDocument path cause position) ∧
          (Failure.malformedDocument path cause position).kind? = some .unexpectedEnd) ∧
      (∀ (others : Files) (more : String), (∃ c ∈ more.toList, c ∉ [' ', '\t', '\n', '\r']) →
        others path = .ok (text ++ more).toUTF8 → ∃ cause position,
          load others path = .error (.malformedDocument path cause position) ∧
          (Failure.malformedDocument path cause position).kind? = some .invalidData) ∧
      ∀ (others : Files) (more : String), (∀ c ∈ more.toList, c ∈ [' ', '\t', '\n', '\r']) →
        others path = .ok (text ++ more).toUTF8 → load others path = .ok dataset := by
  obtain ⟨_, hread, rfl⟩ := exists_root_of_load readable loaded
  obtain rfl := object
  obtain ⟨body, blank, hsplit, hblank, htaken⟩ := Json.exists_takes_document hread pure
  have hmore : ∀ more : String, (text ++ more).toList =
      (body ++ ['\x7d']) ++ (blank ++ more.toList) := by
    intro more
    rw [String.toList_append, hsplit]
    simp
  refine ⟨body, blank, hsplit, fun c hc => Json.isSpace_iff.mp (hblank c hc), ?_, ?_, ?_⟩
  · intro others start hstart hothers
    obtain ⟨fault, hfault, hend⟩ := Json.endsEarly_read htaken hstart
    refine ⟨_, _, load_of_fault hothers hfault, ?_⟩
    rw [Failure.kind?, if_pos hend]
  · intro others more hsome hothers
    obtain ⟨c, hc, hother⟩ := hsome
    have hrest : skipSpace (blank ++ more.toList) ≠ [] := by
      intro hnil
      have hspace := List.dropWhile_eq_nil_iff.mp hnil c (List.mem_append_right blank hc)
      exact hother (Json.isSpace_iff.mp hspace)
    have hfault := Json.read_of_takes htaken (hmore more)
    rw [if_neg hrest] at hfault
    exact ⟨_, _, load_of_fault hothers hfault, rfl⟩
  · intro others more hall hothers
    have hrest : skipSpace (blank ++ more.toList) = [] := by
      refine List.dropWhile_eq_nil_iff.mpr ?_
      intro c hc
      rcases List.mem_append.mp hc with hc | hc
      · exact hblank c hc
      · exact Json.isSpace_iff.mpr (hall c hc)
    have hdocument := Json.read_of_takes htaken (hmore more)
    rw [if_pos hrest] at hdocument
    rw [load_of_readable hothers, ofText, Json.readDistinct, hdocument]

/-- A key with an escaped pair of surrogates, and values two levels deep. -/
theorem load_whole_text_only_nested :
    let text := "\x7b\"k\\uD83D\\uDE00\": [null, \x7b\x7d]\x7d\n"
    ∃ body blank, text.toList = body ++ '\x7d' :: blank ∧
      ∀ (others : Files) (start : String), start.toList <+: body →
        others "d.json" = .ok start.toUTF8 → ∃ cause position,
          load others "d.json" = .error (.malformedDocument "d.json" cause position) ∧
          (Failure.malformedDocument "d.json" cause position).kind? = some .unexpectedEnd := by
  intro text
  let files : Files := fun _ => .ok text.toUTF8
  let members : List (String × Json) := [("k😀", .array [.null, .object []])]
  have hread : Json.readDistinct text = .ok (.object members) := by decide +kernel
  have loaded : load files "d.json" = .ok ⟨"d.json", .object members⟩ := by
    rw [load_of_readable rfl, ofText, hread]
  have pure : Json.NoNumbers (.object members) := by simp [members]
  obtain ⟨body, blank, hsplit, -, hcut, -⟩ := load_whole_text_only rfl loaded rfl pure
  exact ⟨body, blank, hsplit, hcut⟩

end FakeData.Dataset
