import FakeData.Proofs.Request
import FakeData.Proofs.Text
import FakeData.Resolution

/-!
# The grammar of requests

A text is a request exactly when its first `(` and the first `)` after it stand around an
expression, before them is a context that may name a directory, and after them are only blanks.
Any other text is refused for the first of these rules that it breaks.
-/
namespace FakeData.Request

open Text (isBlank pieces split trim trimBlanks)

/-- The text around the first `(` and the first `)` after it. -/
structure Divides (text before inside after : String) : Prop where
  text_eq : text = before ++ "(" ++ inside ++ ")" ++ after
  no_open : '(' ∉ before.toList
  no_close : ')' ∉ inside.toList

/-- A context that leads neither up nor to a directory of its own. -/
structure AllowedContext (context : String) : Prop where
  no_slash : '/' ∉ context.toList
  no_backslash : '\\' ∉ context.toList
  no_dots : ¬ ['.', '.'] <:+: context.toList

/-- The paths are what stands between the bars of an expression. -/
structure CutAtBars (inside : String) (paths : List String) : Prop where
  joined : "|".intercalate paths = inside
  no_bar : ∀ path ∈ paths, '|' ∉ path.toList
  count : paths.length = inside.toList.count '|' + 1

/-- The first rule that a text breaks. -/
inductive FirstFault (text : String) : RequestFault → Prop where
  | missingOpen (absent : '(' ∉ text.toList) : FirstFault text .missingOpen
  | missingClose {before rest : String} (text_eq : text = before ++ "(" ++ rest)
      (no_open : '(' ∉ before.toList) (absent : ')' ∉ rest.toList) :
      FirstFault text .missingClose
  | emptyContext {before inside after : String} (divides : Divides text before inside after)
      (unnamed : trim before = "") : FirstFault text .emptyContext
  | forbiddenContext {before inside after : String} (divides : Divides text before inside after)
      (named : trim before ≠ "") (forbidden : ¬ AllowedContext (trim before)) :
      FirstFault text .forbiddenContext
  | emptyExpression {before inside after : String} (divides : Divides text before inside after)
      (named : trim before ≠ "") (allowed : AllowedContext (trim before)) (nothing : inside = "") :
      FirstFault text .emptyExpression
  | trailingText {before inside after : String} (divides : Divides text before inside after)
      (named : trim before ≠ "") (allowed : AllowedContext (trim before)) (some_path : inside ≠ "")
      (trailing : ∃ c ∈ after.toList, isBlank c = false) : FirstFault text .trailingText

variable {text before inside after rest context : String} {request : Request}
  {fault : RequestFault}

/-! ## The parts of a text -/

section FirstOccurrence

variable {c : Char} {cs ds : List Char}

theorem bne_of_notMem (h : c ∉ cs) : ∀ d ∈ cs, (d != c) = true := by
  intro d hd
  simp [ne_of_mem_of_not_mem hd h]

theorem takeWhile_of_notMem (h : c ∉ cs) : (cs ++ c :: ds).takeWhile (· != c) = cs := by
  rw [List.takeWhile_append_of_pos (bne_of_notMem h), List.takeWhile_cons_of_neg (by simp),
    List.append_nil]

theorem dropWhile_of_notMem (h : c ∉ cs) : (cs ++ c :: ds).dropWhile (· != c) = c :: ds := by
  rw [List.dropWhile_append_of_pos (bne_of_notMem h), List.dropWhile_cons_of_neg (by simp)]

theorem dropWhile_eq_nil_of_notMem (h : c ∉ cs) : cs.dropWhile (· != c) = [] :=
  List.dropWhile_eq_nil_iff.mpr (bne_of_notMem h)

end FirstOccurrence

theorem Divides.toList_eq (h : Divides text before inside after) :
    text.toList = before.toList ++ '(' :: (inside.toList ++ ')' :: after.toList) := by
  simp [h.text_eq, String.toList_append]

/-- A text has one place at which it can be divided. -/
theorem Divides.unique {before' inside' after' : String} (h : Divides text before inside after)
    (h' : Divides text before' inside' after') :
    before = before' ∧ inside = inside' ∧ after = after' := by
  have hchars := h.toList_eq.symm.trans h'.toList_eq
  have hbefore := congrArg (List.takeWhile (· != '(')) hchars
  have hrest := congrArg (List.dropWhile (· != '(')) hchars
  rw [takeWhile_of_notMem h.no_open, takeWhile_of_notMem h'.no_open] at hbefore
  rw [dropWhile_of_notMem h.no_open, dropWhile_of_notMem h'.no_open, List.cons.injEq] at hrest
  have hinside := congrArg (List.takeWhile (· != ')')) hrest.2
  have hafter := congrArg (List.dropWhile (· != ')')) hrest.2
  rw [takeWhile_of_notMem h.no_close, takeWhile_of_notMem h'.no_close] at hinside
  rw [dropWhile_of_notMem h.no_close, dropWhile_of_notMem h'.no_close, List.cons.injEq] at hafter
  exact ⟨String.toList_injective hbefore, String.toList_injective hinside,
    String.toList_injective hafter.2⟩

/-- A text either lacks one of the two parentheses or is divided by them. -/
theorem exists_divides (text : String) :
    '(' ∉ text.toList ∨
      (∃ before rest, text = before ++ "(" ++ rest ∧ '(' ∉ before.toList ∧ ')' ∉ rest.toList) ∨
      ∃ before inside after, Divides text before inside after := by
  by_cases hopen : '(' ∈ text.toList
  · obtain ⟨before, rest, htext, hbefore⟩ := List.eq_append_cons_of_mem hopen
    by_cases hclose : ')' ∈ rest
    · obtain ⟨inside, after, hrest, hinside⟩ := List.eq_append_cons_of_mem hclose
      refine .inr (.inr ⟨.ofList before, .ofList inside, .ofList after, ?_, ?_, ?_⟩)
      · apply String.toList_injective
        simp [htext, hrest, String.toList_append]
      · rwa [String.toList_ofList]
      · rwa [String.toList_ofList]
    · refine .inr (.inl ⟨.ofList before, .ofList rest, ?_, ?_, ?_⟩)
      · apply String.toList_injective
        simp [htext, String.toList_append]
      · rwa [String.toList_ofList]
      · rwa [String.toList_ofList]
  · exact .inl hopen

theorem read_of_no_open (absent : '(' ∉ text.toList) :
    read text.toList = .error .missingOpen := by
  simp only [read, dropWhile_eq_nil_of_notMem absent]

theorem read_of_no_close (no_open : '(' ∉ before.toList) (absent : ')' ∉ rest.toList) :
    read (before ++ "(" ++ rest).toList = .error .missingClose := by
  have hchars : (before ++ "(" ++ rest).toList = before.toList ++ '(' :: rest.toList := by
    simp [String.toList_append]
  simp only [read, hchars, dropWhile_of_notMem no_open, dropWhile_eq_nil_of_notMem absent]

/-- Where a text is divided, its parts are checked. -/
theorem read_of_divides (h : Divides text before inside after) :
    read text.toList = ofParts (trimBlanks before.toList) inside.toList after.toList := by
  simp only [read, h.toList_eq, dropWhile_of_notMem h.no_open, takeWhile_of_notMem h.no_open,
    dropWhile_of_notMem h.no_close, takeWhile_of_notMem h.no_close]

/-! ## The checks -/

theorem hasDoubleDot_iff {cs : List Char} : hasDoubleDot cs = true ↔ ['.', '.'] <:+: cs := by
  fun_induction hasDoubleDot cs with
  | case1 cs => exact iff_of_true rfl ⟨[], cs, rfl⟩
  | case2 c cs hdots ih =>
    rw [List.infix_cons_iff, ih]
    refine ⟨.inr, ?_⟩
    rintro (⟨rest, hrest⟩ | h)
    · obtain ⟨rfl, hcs⟩ := List.cons.inj hrest
      exact absurd hcs.symm (hdots rest rfl)
    · exact h
  | case3 => simp

theorem isForbiddenContext_iff :
    isForbiddenContext context.toList = false ↔ AllowedContext context := by
  have hdots : hasDoubleDot context.toList = false ↔ ¬ ['.', '.'] <:+: context.toList := by
    rw [← hasDoubleDot_iff, Bool.not_eq_true]
  simp only [isForbiddenContext, Bool.or_eq_false_iff, List.contains_eq_mem,
    decide_eq_false_iff_not, hdots]
  constructor
  · rintro ⟨⟨hslash, hbackslash⟩, hdots⟩
    exact ⟨hslash, hbackslash, hdots⟩
  · rintro ⟨hslash, hbackslash, hdots⟩
    exact ⟨⟨hslash, hbackslash⟩, hdots⟩

instance (context : String) : Decidable (AllowedContext context) :=
  decidable_of_iff _ isForbiddenContext_iff

theorem cutAtBars_iff {paths : List String} :
    CutAtBars inside paths ↔ paths = split '|' inside := by
  constructor
  · rintro ⟨rfl, no_bar, count⟩
    have nonempty : paths ≠ [] := List.ne_nil_of_length_pos (by omega)
    exact (Text.split_intercalate nonempty no_bar).symm
  · rintro rfl
    exact ⟨Text.intercalate_split '|' inside, fun _ => Text.notMem_of_mem_split,
      Text.length_split '|' inside⟩

theorem trim_ne_empty_iff : trim text ≠ "" ↔ ∃ c ∈ text.toList, isBlank c = false := by
  simp [Text.trim_eq_empty_iff]

/-- The checks in the order in which they are made. -/
theorem read_eq_checks (h : Divides text before inside after) :
    read text.toList =
      if trim before = "" then .error .emptyContext
      else if ¬ AllowedContext (trim before) then .error .forbiddenContext
      else if inside = "" then .error .emptyExpression
      else if trim after ≠ "" then .error .trailingText
      else .ok ⟨trim before, split '|' inside⟩ := by
  have hforbidden : isForbiddenContext (trim before).toList = true ↔
      ¬ AllowedContext (trim before) := by
    rw [← isForbiddenContext_iff, Bool.not_eq_false]
  rw [read_of_divides h, ← Text.toList_trim, ofParts]
  simp only [ne_eq, ← Text.toList_trim, String.toList_eq_nil_iff, hforbidden, String.ofList_toList,
    split]

/-! ## Accepted and refused texts -/

theorem parse_eq_ok_iff :
    parse text = .ok request ↔
      ∃ before inside after, Divides text before inside after ∧
        trim before ≠ "" ∧ AllowedContext (trim before) ∧ inside ≠ "" ∧
        (∀ c ∈ after.toList, isBlank c = true) ∧
        request.context = trim before ∧ CutAtBars inside request.paths := by
  rw [parse_eq_ok_iff_read]
  constructor
  · intro h
    rcases exists_divides text with absent | ⟨before, rest, rfl, no_open, absent⟩ |
      ⟨before, inside, after, divides⟩
    · rw [read_of_no_open absent] at h
      cases h
    · rw [read_of_no_close no_open absent] at h
      cases h
    · rw [read_eq_checks divides] at h
      split_ifs at h with unnamed allowed nothing trailing
      cases h
      have blank := Text.trim_eq_empty_iff.mp (not_not.mp trailing)
      exact ⟨before, inside, after, divides, unnamed, allowed, nothing, blank, rfl,
        cutAtBars_iff.mpr rfl⟩
  · rintro ⟨before, inside, after, divides, named, allowed, some_path, blank, hcontext, hpaths⟩
    have hafter := Text.trim_eq_empty_iff.mpr blank
    rw [read_eq_checks divides, if_neg named, if_neg (not_not.mpr allowed), if_neg some_path,
      if_neg (not_not.mpr hafter), ← hcontext, ← cutAtBars_iff.mp hpaths]

theorem read_eq_error_iff : read text.toList = .error fault ↔ FirstFault text fault := by
  constructor
  · intro h
    rcases exists_divides text with absent | ⟨before, rest, rfl, no_open, absent⟩ |
      ⟨before, inside, after, divides⟩
    · rw [read_of_no_open absent] at h
      cases h
      exact .missingOpen absent
    · rw [read_of_no_close no_open absent] at h
      cases h
      exact .missingClose rfl no_open absent
    · rw [read_eq_checks divides] at h
      split_ifs at h with unnamed allowed nothing trailing
      · cases h
        exact .emptyContext divides unnamed
      · cases h
        exact .emptyExpression divides unnamed allowed nothing
      · cases h
        exact .trailingText divides unnamed allowed nothing (trim_ne_empty_iff.mp trailing)
      · cases h
        exact .forbiddenContext divides unnamed allowed
  · intro h
    cases h with
    | missingOpen absent => exact read_of_no_open absent
    | missingClose text_eq no_open absent => rw [text_eq, read_of_no_close no_open absent]
    | emptyContext divides unnamed => rw [read_eq_checks divides, if_pos unnamed]
    | forbiddenContext divides named forbidden =>
      rw [read_eq_checks divides, if_neg named, if_pos forbidden]
    | emptyExpression divides named allowed nothing =>
      rw [read_eq_checks divides, if_neg named, if_neg (not_not.mpr allowed), if_pos nothing]
    | trailingText divides named allowed some_path trailing =>
      rw [read_eq_checks divides, if_neg named, if_neg (not_not.mpr allowed), if_neg some_path,
        if_pos (trim_ne_empty_iff.mpr trailing)]

theorem parse_eq_error_iff {malformed : MalformedRequest} :
    parse text = .error malformed ↔
      malformed.request = text ∧ FirstFault text malformed.fault := by
  rw [parse_eq_error_iff_read, read_eq_error_iff]

/-- A text is accepted exactly when it follows the grammar, which divides it in one way only. Any
other text is refused for the first rule that it breaks, and a resolution reports the text as it
stands with that rule. -/
theorem parse_grammar_or_first_fault (text : String) :
    (∀ request, parse text = .ok request ↔
      ∃ before inside after, Divides text before inside after ∧
        trim before ≠ "" ∧ AllowedContext (trim before) ∧ inside ≠ "" ∧
        (∀ c ∈ after.toList, isBlank c = true) ∧
        request.context = trim before ∧ CutAtBars inside request.paths) ∧
      (∀ before inside after before' inside' after', Divides text before inside after →
        Divides text before' inside' after' →
        before = before' ∧ inside = inside' ∧ after = after') ∧
      (∀ malformed, parse text = .error malformed ↔
        malformed.request = text ∧ FirstFault text malformed.fault) ∧
      ∀ fault, FirstFault text fault → ∀ files store locale selection,
        resolve files store locale text selection =
          .done (.error (.malformedRequest text fault)) := by
  refine ⟨fun request => parse_eq_ok_iff, ?_, fun malformed => parse_eq_error_iff, ?_⟩
  · intro before inside after before' inside' after' h h'
    exact h.unique h'
  · intro fault first files store locale selection
    have refused : parse text = .error ⟨text, fault⟩ := parse_eq_error_iff.mpr ⟨rfl, first⟩
    simp only [resolve, refused]

/-- Parentheses may stand in a context or an expression, and a path may be empty. -/
example : parse "a)b ((x||\u0028) \t" = .ok ⟨"a)b", ["(x", "", "("]⟩ := by decide

end FakeData.Request
