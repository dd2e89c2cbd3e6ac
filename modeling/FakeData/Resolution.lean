import FakeData.Selection

/-!
# Resolution

From the text of a request to a value. The request is read, the dataset is loaded, every path is
looked up, and only then is anything drawn.
-/
namespace FakeData

/-- The value of a request, drawn from the dataset that serves it. -/
def resolve (files : Files) (store : DatasetStore) (locale : Locale) (request : String)
    (selection : Selection) : Draw (Except Failure String) :=
  match Request.parse request with
  | .error ⟨text, fault⟩ => .done (.error (.malformedRequest text fault))
  | .ok parsed =>
    match store.valueMaps files locale parsed with
    | .error failure => .done (.error failure)
    | .ok maps => selectValues selection maps

end FakeData
