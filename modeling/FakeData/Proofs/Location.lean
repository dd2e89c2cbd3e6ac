import FakeData.Dataset
import FakeData.Proofs.Path
import FakeData.Proofs.Request

/-!
# Locations of datasets

The dataset of an accepted request lies below the directory of its language, wherever the root of
the store is, and no other locale or context leads to the same place.
-/
namespace FakeData

open FakeData.Path (IsComponent Place)

variable {context : String}

/-! ## Names below the root -/

theorem Language.isComponent_code (language : Language) : IsComponent language.code := by
  constructor <;> cases language <;> decide

theorem Language.code_ne_dot (language : Language) : language.code ≠ "." := by
  cases language <;> decide

theorem Language.code_injective {language other : Language} (h : language.code = other.code) :
    language = other := by
  revert h
  cases language <;> cases other <;> decide

theorem Country.length_code (country : Country) : country.code.toList.length = 2 := by
  cases country <;> rfl

theorem Country.code_injective {country other : Country}
    (h : country.code.toList = other.code.toList) : country = other := by
  revert h
  cases country <;> cases other <;> decide

namespace Locale

def fileName (locale : Locale) (context : String) : String :=
  locale.country.code ++ "_" ++ context ++ ".json"

theorem lowLine_mem_fileName (locale : Locale) (context : String) :
    '_' ∈ (locale.fileName context).toList := by
  simp [fileName, String.toList_append]

/-- No name without a low line is that of a file. -/
theorem fileName_ne (locale : Locale) (context : String) {name : String}
    (h : '_' ∉ name.toList) : locale.fileName context ≠ name := by
  rintro rfl
  exact h (lowLine_mem_fileName locale context)

theorem isComponent_fileName (locale : Locale) (h : IsComponent context) :
    IsComponent (locale.fileName context) := by
  have hcode : '/' ∉ locale.country.code.toList := by
    cases locale.country <;> decide
  refine ⟨fileName_ne locale context (by decide), ?_, fileName_ne locale context (by decide)⟩
  simp [fileName, String.toList_append, hcode, h.no_slash]

/-- A file name tells the country and the context, since all codes of countries are equally
long. -/
theorem eq_of_fileName_eq {locale other : Locale} {otherContext : String}
    (h : locale.fileName context = other.fileName otherContext) :
    locale.country = other.country ∧ context = otherContext := by
  have hchars := congrArg String.toList h
  simp only [fileName, String.toList_append, List.append_assoc] at hchars
  have hlength : locale.country.code.toList.length = other.country.code.toList.length := by
    rw [Country.length_code, Country.length_code]
  obtain ⟨hcode, hrest⟩ := List.append_inj hchars hlength
  have hcontext := List.append_cancel_right (List.append_cancel_left hrest)
  exact ⟨Country.code_injective hcode, String.toList_injective hcontext⟩

def added (locale : Locale) (context : String) : List String :=
  [locale.language.code, context, locale.fileName context]

theorem isComponent_of_mem_added (locale : Locale) (h : IsComponent context) :
    ∀ name ∈ locale.added context, IsComponent name := by
  simp only [added, List.forall_mem_cons]
  exact ⟨locale.language.isComponent_code, h, isComponent_fileName locale h, by simp⟩

theorem datasetFile_eq (locale : Locale) (h : IsComponent context) :
    locale.datasetFile context = "/".intercalate (locale.added context) := by
  have hlanguage : Path.isOpen locale.language.code = false := by
    cases locale.language <;> decide
  have hcontext : Path.isOpen (locale.language.code ++ "/" ++ context) = false :=
    Path.isOpen_append_component h
  have hfile := (isComponent_fileName locale h).isAbsolute_eq_false
  rw [datasetFile, Path.join_of_relative h.isAbsolute_eq_false, hlanguage, ← fileName,
    Path.join_of_relative hfile, if_neg Bool.false_ne_true, hcontext, if_neg Bool.false_ne_true]
  simp [added, String.intercalate_cons_cons, String.append_assoc]

theorem isAbsolute_datasetFile (locale : Locale) (h : IsComponent context) :
    Path.isAbsolute (locale.datasetFile context) = false := by
  have hcode := locale.language.isComponent_code
  rw [datasetFile_eq locale h, added, String.intercalate_cons_cons, String.append_assoc,
    Path.isAbsolute_append hcode.nonempty]
  exact hcode.isAbsolute_eq_false

/-- Of what is added only a context can be dropped, and only between the language and the file. -/
theorem filter_added (locale : Locale) (context : String) :
    (locale.added context).filter (· != ".") =
      locale.language.code :: ([context].filter (· != ".") ++ [locale.fileName context]) := by
  have hcode := locale.language.code_ne_dot
  have hfile : locale.fileName context ≠ "." := fileName_ne locale context (by decide)
  by_cases hdot : context = "."
  · subst hdot
    simp [added, hcode, hfile]
  · simp [added, hcode, hfile, hdot]

end Locale

/-! ## Places below the root -/

namespace DatasetStore

variable {store : DatasetStore} {locale : Locale} {request : Request}

/-- The root is followed by what is added, with a slash between them where one is missing. -/
theorem locate_eq (h : IsComponent request.context) :
    store.locate locale request =
      store.root ++ (if store.root = "" ∨ store.root.toList.getLast? = some '/' then "" else "/") ++
        "/".intercalate (locale.added request.context) := by
  rw [locate, Path.join_of_relative (locale.isAbsolute_datasetFile h), locale.datasetFile_eq h]
  simp only [Path.isOpen_iff]

theorem place_locate (h : IsComponent request.context) :
    Path.place (store.locate locale request) =
      { Path.place store.root with
        names := (Path.place store.root).names ++
          (locale.added request.context).filter (· != ".") } := by
  have hadded := locale.isComponent_of_mem_added h
  have hcomponents : Path.components (locale.datasetFile request.context) =
      locale.added request.context := by
    rw [locale.datasetFile_eq h]
    exact Path.components_intercalate (List.cons_ne_nil _ _) fun name hname =>
      (hadded name hname).no_slash
  rw [locate, Path.place_join (locale.isAbsolute_datasetFile h), hcomponents,
    Place.foldl_enter _ hadded]

theorem place_join_code (root : String) (language : Language) :
    Path.place (Path.join root language.code) =
      { Path.place root with names := (Path.place root).names ++ [language.code] } := by
  have hcode := language.isComponent_code
  rw [Path.place_join hcode.isAbsolute_eq_false, Path.components_of_notMem hcode.no_slash,
    List.foldl_cons, List.foldl_nil, Place.enter_component _ hcode]
  simp [language.code_ne_dot]

/-- What is added leads below the directory of the language. -/
theorem isStrictlyBelow_locate (h : IsComponent request.context) :
    (Path.place (store.locate locale request)).IsStrictlyBelow
      (Path.place (Path.join store.root locale.language.code)) := by
  refine ⟨[request.context].filter (· != ".") ++ [locale.fileName request.context], by simp,
    ?_, ?_⟩
  · intro hparent
    rcases List.mem_append.mp hparent with hcontext | hfile
    · exact h.not_parent (List.mem_singleton.mp (List.mem_of_mem_filter hcontext)).symm
    · exact (locale.isComponent_fileName h).not_parent (List.mem_singleton.mp hfile).symm
  · rw [place_locate h, place_join_code, Locale.filter_added, List.append_assoc,
      List.singleton_append]

/-- Below one root the place of a dataset tells the locale and the context. -/
theorem eq_of_place_locate_eq {other : Locale} {otherRequest : Request}
    (h : IsComponent request.context) (hother : IsComponent otherRequest.context)
    (same : Path.place (store.locate locale request) =
      Path.place (store.locate other otherRequest)) :
    locale = other ∧ request.context = otherRequest.context := by
  rw [place_locate h, place_locate hother] at same
  have hnames := List.append_cancel_left (congrArg Place.names same)
  rw [Locale.filter_added, Locale.filter_added] at hnames
  obtain ⟨hcode, hbelow⟩ := List.cons.inj hnames
  obtain ⟨-, hfile⟩ := List.append_inj' hbelow rfl
  obtain ⟨hcountry, hcontext⟩ := Locale.eq_of_fileName_eq (List.singleton_inj.mp hfile)
  have hlanguage := Language.code_injective hcode
  cases locale
  cases other
  cases hcountry
  cases hlanguage
  exact ⟨rfl, hcontext⟩

/-- The path of an accepted request is the root, followed by three components that lead strictly
below the directory of the language. No other locale or context has this path, nor another path to
the same place. -/
theorem locate_confined_and_separate (store : DatasetStore) (locale : Locale) {text : String}
    {request : Request} (accepted : Request.parse text = .ok request) :
    let path := store.locate locale request
    let file := locale.country.code ++ "_" ++ request.context ++ ".json"
    path = store.root ++
        (if store.root = "" ∨ store.root.toList.getLast? = some '/' then "" else "/") ++
        locale.language.code ++ "/" ++ request.context ++ "/" ++ file ∧
      (∀ name ∈ [locale.language.code, request.context, file],
        IsComponent name ∧ Path.isAbsolute name = false) ∧
      (Path.place path).IsStrictlyBelow
        (Path.place (Path.join store.root locale.language.code)) ∧
      ∀ other otherText otherRequest, Request.parse otherText = .ok otherRequest →
        (path = store.locate other otherRequest ↔
          locale = other ∧ request.context = otherRequest.context) ∧
        (Path.place path = Path.place (store.locate other otherRequest) ↔
          locale = other ∧ request.context = otherRequest.context) := by
  intro path file
  have h := Request.isComponent_of_parse accepted
  refine ⟨?_, ?_, isStrictlyBelow_locate h, ?_⟩
  · simp only [path, file, locate_eq h, Locale.added, Locale.fileName,
      String.intercalate_cons_cons, String.intercalate_singleton, String.append_assoc]
  · intro name hname
    have hcomponent := locale.isComponent_of_mem_added h name hname
    exact ⟨hcomponent, hcomponent.isAbsolute_eq_false⟩
  · intro other otherText otherRequest otherAccepted
    have hother := Request.isComponent_of_parse otherAccepted
    have same : locale = other ∧ request.context = otherRequest.context →
        path = store.locate other otherRequest := by
      rintro ⟨rfl, hcontext⟩
      simp only [path, locate, hcontext]
    refine ⟨⟨?_, same⟩, ⟨eq_of_place_locate_eq h hother, ?_⟩⟩
    · intro hpath
      exact eq_of_place_locate_eq h hother (congrArg Path.place hpath)
    · intro hpair
      rw [same hpair]

/-- A context of one dot adds no directory of its own. -/
theorem locate_dot_confined :
    Request.parse " . (/a)" = .ok ⟨".", ["/a"]⟩ ∧
      locate ⟨"../data/"⟩ ⟨.ukraine, .ukrainian⟩ ⟨".", ["/a"]⟩ = "../data/ukr/./ua_..json" ∧
      (Path.place (locate ⟨"../data/"⟩ ⟨.ukraine, .ukrainian⟩ ⟨".", ["/a"]⟩)).IsStrictlyBelow
        (Path.place "../data/ukr") := by
  have accepted : Request.parse " . (/a)" = .ok ⟨".", ["/a"]⟩ := by decide
  obtain ⟨hpath, -, hbelow, -⟩ :=
    locate_confined_and_separate ⟨"../data/"⟩ ⟨.ukraine, .ukrainian⟩ accepted
  exact ⟨accepted, by rw [hpath]; decide, hbelow⟩

end DatasetStore

end FakeData
