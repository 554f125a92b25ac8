import TradeBot.Lib.Json

set_option autoImplicit false

/-! # Reading a message on demand

The processor thread does not turn a message into a JSON value first. It uses the On-Demand interface
of simdjson, which is not part of the repository: a document is read from front to back by one cursor,
a field is looked up from where the cursor stands (and from the front again when the end has come), and
an array is read by a loop that moves the same cursor.

`OnDemand` takes the library as a parameter. It has the calls of `PipelineProcessor.cpp`, and what the
library documents of them:

* a lookup finds the field of that name, whatever has been looked up before;
* a loop over an array that was found just now comes across its items;
* an array is read once. A further lookup moves the cursor out of it, and a loop after that finds
  nothing. Only if what was looked up is an object that nobody has read, the cursor still stands
  deeper than the array, and nothing is said of the loop.

`OnDemand.forward` is such a reader: it remembers whether its cursor is inside the array. -/

namespace TradeBot

/-- What the processor uses of the reader. -/
structure OnDemand where
  /-- A document, or an object in one, with the cursor that reads it. -/
  Object : Type
  Array : Type
  /-- `parser.iterate`, on well-formed text. -/
  iterate : Json → Object
  /-- `object[key].get_string()`, and the cursor behind it. The next three are alike. -/
  getString (key : String) : StateM Object (Option String)
  getDouble (key : String) : StateM Object (Option ℚ)
  getInt64 (key : String) : StateM Object (Option ℤ)
  getArray (key : String) : StateM Object (Option Array)
  /-- The items that a loop over the array comes across and that are objects. -/
  objects : Array → Object → List Object
  /-- The cursor reads that value. -/
  Reads : Object → Json → Prop
  /-- The cursor has come to the array, and may have left it. -/
  Visited : Object → Array → Prop
  reads_iterate (j : Json) : Reads (iterate j) j
  getString_eq {o : Object} {j : Json} (h : Reads o j) (key : String) :
    (getString key o).1 = (j.find? key).bind Json.string? ∧ Reads (getString key o).2 j
  getDouble_eq {o : Object} {j : Json} (h : Reads o j) (key : String) :
    (getDouble key o).1 = (j.find? key).bind Json.double? ∧ Reads (getDouble key o).2 j
  getInt64_eq {o : Object} {j : Json} (h : Reads o j) (key : String) :
    (getInt64 key o).1 = (j.find? key).bind Json.int64? ∧ Reads (getInt64 key o).2 j
  /-- An array that was found is read from its start. -/
  getArray_eq {o : Object} {j : Json} (h : Reads o j) (key : String) :
    Option.Rel (fun array items => List.Forall₂ Reads (objects array (getArray key o).2)
        (items.filter Json.isObject))
      (getArray key o).1 ((j.find? key).bind Json.array?) ∧ Reads (getArray key o).2 j
  visited_getArray {o : Object} {key : String} {array : Array}
    (h : (getArray key o).1 = some array) : Visited (getArray key o).2 array
  visited_getString {o : Object} {array : Array} (h : Visited o array) (key : String) :
    Visited (getString key o).2 array
  /-- A lookup leaves the array. -/
  objects_getString {o : Object} {j : Json} {array : Array} {key : String} (hreads : Reads o j)
    (hvisited : Visited o array) (hfield : ∀ v, j.find? key = some v → v.isObject = false) :
    objects array (getString key o).2 = []

namespace OnDemand

/-! ## A forward reader -/

/-- A value with its cursor, which is at the start of an array or elsewhere. -/
structure Forward where
  json : Json
  inArray : Bool := false

/-- A lookup of a single value, which takes the cursor out of an array. -/
def Forward.lookup {α : Type} (convert : Json → Option α) (key : String) :
    StateM Forward (Option α) :=
  fun o => ((o.json.find? key).bind convert, { o with inArray := false })

/-- The reader on a parsed value. -/
def forward : OnDemand where
  Object := Forward
  Array := List Json
  iterate j := { json := j }
  getString := Forward.lookup Json.string?
  getDouble := Forward.lookup Json.double?
  getInt64 := Forward.lookup Json.int64?
  getArray key o := ((o.json.find? key).bind Json.array?, { o with inArray := true })
  objects items o :=
    if o.inArray then (items.filter Json.isObject).map (fun item => { json := item }) else []
  Reads o j := o.json = j
  Visited _ _ := True
  reads_iterate _ := rfl
  getString_eq h _ := h ▸ ⟨rfl, rfl⟩
  getDouble_eq h _ := h ▸ ⟨rfl, rfl⟩
  getInt64_eq h _ := h ▸ ⟨rfl, rfl⟩
  getArray_eq := by
    rintro o j rfl key
    refine ⟨?_, rfl⟩
    cases (o.json.find? key).bind Json.array? with
    | none => exact .none
    | some items =>
        refine .some ?_
        rw [if_pos rfl, List.forall₂_map_left_iff, List.forall₂_same]
        exact fun _ _ => rfl
  visited_getArray _ := trivial
  visited_getString _ _ := trivial
  objects_getString _ _ _ := rfl

end OnDemand

end TradeBot
