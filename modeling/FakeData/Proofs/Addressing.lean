import FakeData.Proofs.Extraction
import FakeData.Proofs.Json.Pointer
import FakeData.Proofs.Request.Display
import FakeData.Proofs.Resolution

/-!
# Addresses

Whatever stands in a dataset under keys without bars and closing parentheses has an address, which
is a request in the usual spelling: each key is escaped and put behind a slash, and paths are
separated by bars. Under other keys nothing can be addressed.
-/
namespace FakeData

open Json (LeadsTo)
open Json.Pointer (escape lookup? ofKeys)

/-! ## Spelling -/

/-- A key with `~` replaced by `~0`, and after that `/` by `~1`. -/
def escapeKey (key : String) : String :=
  Text.replaceChar '/' "~1" (Text.replaceChar '~' "~0" key)

/-- A path, with a slash before each key. -/
def pathOf (keys : List String) : String := String.join (keys.map fun key => "/" ++ escapeKey key)

/-- The address of what some paths lead to in the dataset of a context. -/
def address (context : String) (keyPaths : List (List String)) : String :=
  context ++ "(" ++ "|".intercalate (keyPaths.map pathOf) ++ ")"

/-- Replacing one character after the other escapes each character once, since the slash is
replaced by characters that are not replaced again. -/
theorem toList_escapeKey (key : String) : (escapeKey key).toList = escape key.toList := by
  rw [escapeKey, Text.toList_replaceChar, Text.toList_replaceChar, List.flatMap_assoc, escape]
  refine List.flatMap_congr fun c _ => ?_
  rw [Json.Pointer.escapeChar]
  split_ifs with htilde hslash
  · rfl
  · simp [hslash]
  · simp [hslash]

theorem pathOf_eq_ofKeys (keys : List String) : pathOf keys = ofKeys keys := by
  rw [← String.toList_inj, Json.Pointer.toList_ofKeys, pathOf, String.toList_join, List.flatMap_map]
  refine List.flatMap_congr fun key _ => ?_
  rw [String.toList_append, toList_escapeKey]
  rfl

theorem pathOf_eq_empty_iff {keys : List String} : pathOf keys = "" ↔ keys = [] := by
  rw [← String.toList_eq_nil_iff, pathOf_eq_ofKeys, Json.Pointer.toList_ofKeys]
  cases keys <;> simp

/-- Only a slash and the escapes are added to the characters of the keys. -/
theorem notMem_pathOf {c : Char} {keys : List String} (other : c ∉ ['/', '~', '0', '1'])
    (h : ∀ key ∈ keys, c ∉ key.toList) : c ∉ (pathOf keys).toList := by
  rw [pathOf_eq_ofKeys, Json.Pointer.toList_ofKeys]
  intro hc
  obtain ⟨key, hkey, hc⟩ := List.mem_flatMap.mp hc
  rcases List.mem_cons.mp hc with rfl | hc
  · exact other List.mem_cons_self
  · rcases Json.Pointer.mem_escape hc with hc | hc
    · exact h key hkey hc
    · exact other (List.mem_cons_of_mem _ hc)

/-! ## Addresses are requests -/

/-- Neither of the two characters that end a path is in the key. -/
def Addressable (key : String) : Prop := '|' ∉ key.toList ∧ ')' ∉ key.toList

instance (key : String) : Decidable (Addressable key) := inferInstanceAs (Decidable (_ ∧ _))

variable {context : String} {keyPaths : List (List String)}

theorem wellFormed_address (named : context ≠ "") (trimmed : Text.trim context = context)
    (no_open : '(' ∉ context.toList) (allowed : Request.AllowedContext context)
    (some_path : keyPaths ≠ []) (not_blank : keyPaths ≠ [[]])
    (addressable : ∀ keys ∈ keyPaths, ∀ key ∈ keys, Addressable key) :
    Request.WellFormed ⟨context, keyPaths.map pathOf⟩ where
  named := named
  trimmed := trimmed
  no_open := no_open
  allowed := allowed
  paths_ne_nil := by simpa using some_path
  paths_ne_blank := by
    intro hblank
    obtain ⟨keys, rfl, hkeys⟩ := List.map_eq_singleton_iff.mp hblank
    rw [pathOf_eq_empty_iff.mp hkeys] at not_blank
    exact not_blank rfl
  no_bar := by
    simp only [List.forall_mem_map]
    intro keys hkeys
    exact notMem_pathOf (by decide) fun key hkey => (addressable keys hkeys key hkey).1
  no_close := by
    simp only [List.forall_mem_map]
    intro keys hkeys
    exact notMem_pathOf (by decide) fun key hkey => (addressable keys hkeys key hkey).2

/-! ## What is found -/

/-- Paths that lead to candidates give these candidates, in the order of the paths. -/
theorem Dataset.extractAll_pathOf {dataset : Dataset}
    (served : ∀ keys ∈ keyPaths, ∃ node, LeadsTo keys dataset.root node ∧ node.HoldsCandidates) :
    ∃ maps, dataset.extractAll (keyPaths.map pathOf) = .ok maps ∧
      List.Forall₂ (fun keys map => LeadsTo keys dataset.root map.toJson) keyPaths maps := by
  simp only [extractAll_eq_ok_iff, List.forall₂_map_left_iff]
  induction keyPaths with
  | nil => exact ⟨[], .nil, .nil⟩
  | cons keys keyPaths ih =>
    obtain ⟨⟨node, leads, holds⟩, served⟩ := List.forall_mem_cons.mp served
    obtain ⟨map, rfl, complete⟩ := holds.exists_map
    obtain ⟨maps, hextract, hleads⟩ := ih served
    have hfound : lookup? (pathOf keys) dataset.root = some map.toJson := by
      rw [pathOf_eq_ofKeys, Json.Pointer.lookup?_ofKeys leads]
    exact ⟨map :: maps, .cons (extract_eq_ok_iff.mpr ⟨hfound, complete⟩) hextract,
      .cons leads hleads⟩

/-- Where the document is kept makes no difference to its maps. -/
theorem Dataset.extractAll_of_root {dataset : Dataset} {pointers : List String}
    {maps : List ValueMap} (h : dataset.extractAll pointers = .ok maps) (path : String) :
    extractAll ⟨path, dataset.root⟩ pointers = .ok maps := by
  rw [extractAll_eq_ok_iff] at h ⊢
  simpa only [extract_eq_ok_iff] using h

/-- The paths of a request find the same where nothing is under a key that is not addressable. -/
theorem lookup?_without_of_parse {text path : String} {request : Request}
    (accepted : Request.parse text = .ok request) (hpath : path ∈ request.paths)
    (document : Json) :
    lookup? path (document.without fun key => ¬Addressable key) =
      (lookup? path document).map (Json.without fun key => ¬Addressable key) := by
  have wellFormed := Request.wellFormed_of_parse accepted
  refine Json.Pointer.lookup?_without ?_ document
  intro key hkey
  rw [decide_eq_true_iff, Addressable, not_and_or, not_not, not_not] at hkey
  rcases hkey with hbar | hclose
  · exact ⟨'|', hbar, wellFormed.no_bar path hpath, by decide, by decide⟩
  · exact ⟨')', hclose, wellFormed.no_close path hpath, by decide, by decide⟩

/-- Take a context that can be named and paths of addressable keys, other than one empty path. Their
address is accepted, and wherever each of the paths leads through objects to candidates, the
request that is read gives the maps of just these objects, in order. Conversely no path of an
accepted request has a bar or a closing parenthesis, so whatever is under a key with one of them
makes no difference to what the path finds. -/
theorem address_gives_candidates :
    (∀ (context : String) (keyPaths : List (List String)), context ≠ "" →
        Text.trim context = context → '(' ∉ context.toList → Request.AllowedContext context →
        keyPaths ≠ [] → keyPaths ≠ [[]] →
        (∀ keys ∈ keyPaths, ∀ key ∈ keys, Addressable key) →
        let request : Request := ⟨context, keyPaths.map pathOf⟩
        Request.parse (address context keyPaths) = .ok request ∧
          ∀ dataset : Dataset,
            (∀ keys ∈ keyPaths, ∃ node, LeadsTo keys dataset.root node ∧ node.HoldsCandidates) →
            ∃ maps, dataset.extractAll request.paths = .ok maps ∧
              List.Forall₂ (fun keys map => LeadsTo keys dataset.root map.toJson) keyPaths maps ∧
              ∀ files (store : DatasetStore) locale text,
                files (store.locate locale request) = .ok text.toUTF8 →
                Json.readDistinct text = .ok dataset.root →
                store.valueMaps files locale request = .ok maps) ∧
      ∀ text request, Request.parse text = .ok request → ∀ path ∈ request.paths,
        '|' ∉ path.toList ∧ ')' ∉ path.toList ∧
          ∀ document : Json,
            lookup? path (document.without fun key => ¬Addressable key) =
              (lookup? path document).map (Json.without fun key => ¬Addressable key) := by
  refine ⟨?_, ?_⟩
  · intro context keyPaths named trimmed no_open allowed some_path not_blank addressable request
    have wellFormed : Request.WellFormed request :=
      wellFormed_address named trimmed no_open allowed some_path not_blank addressable
    refine ⟨wellFormed.parse_display, ?_⟩
    intro dataset served
    obtain ⟨maps, hmaps, hleads⟩ := Dataset.extractAll_pathOf served
    refine ⟨maps, hmaps, hleads, ?_⟩
    intro files store locale text readable read
    rw [DatasetStore.valueMaps_of_readable readable read]
    exact Dataset.extractAll_of_root hmaps _
  · intro text request accepted path hpath
    have wellFormed := Request.wellFormed_of_parse accepted
    exact ⟨wellFormed.no_bar path hpath, wellFormed.no_close path hpath,
      lookup?_without_of_parse accepted hpath⟩

/-- Keys may be empty, have a slash or an opening parenthesis, or look like an escape. -/
theorem address_unusual_gives_candidates :
    let first : ValueMap := [("k", ["v"])]
    let second : ValueMap := [("l", ["w", "x"]), ("m", ["y"])]
    let document : Json := .object
      [("a/b", .object [("~1", first.toJson)]), ("", .object [("(", second.toJson)])]
    Request.parse "name(/a~1b/~01|//()" = .ok ⟨"name", ["/a~1b/~01", "//("]⟩ ∧
      ∃ maps, Dataset.extractAll ⟨"data.json", document⟩ ["/a~1b/~01", "//("] = .ok maps ∧
        maps.map ValueMap.toJson = [first.toJson, second.toJson] := by
  intro first second document
  have haddress : address "name" [["a/b", "~1"], ["", "("]] = "name(/a~1b/~01|//()" := by decide
  have hpaths : [["a/b", "~1"], ["", "("]].map pathOf = ["/a~1b/~01", "//("] := by decide
  have toFirst : LeadsTo ["a/b", "~1"] document first.toJson :=
    .member rfl (.member rfl (.here first.toJson))
  have toSecond : LeadsTo ["", "("] document second.toJson :=
    .member rfl (.member rfl (.here second.toJson))
  obtain ⟨parsed, extracted⟩ := address_gives_candidates.1 "name" [["a/b", "~1"], ["", "("]]
    (by decide) (by decide) (by decide) (by decide) (by decide) (by decide) (by decide)
  rw [haddress, hpaths] at parsed
  rw [hpaths] at extracted
  have hfirst : first.IsComplete := ⟨by decide, by decide⟩
  have hsecond : second.IsComplete := ⟨by decide, by decide⟩
  obtain ⟨maps, hmaps, hleads, -⟩ := extracted ⟨"data.json", document⟩
    (List.forall_mem_cons.mpr ⟨⟨_, toFirst, ValueMap.holdsCandidates_toJson hfirst⟩,
      List.forall_mem_singleton.mpr ⟨_, toSecond, ValueMap.holdsCandidates_toJson hsecond⟩⟩)
  refine ⟨parsed, maps, hmaps, ?_⟩
  cases hleads with
  | cons hone hrest =>
    cases hrest with
    | cons htwo hnil =>
      cases hnil
      rw [List.map_cons, List.map_singleton, toFirst.unique hone, toSecond.unique htwo]

end FakeData
