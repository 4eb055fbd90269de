import Recolor.Item.Icon
import Recolor.Mosaic.Record
import Recolor.Proofs.Json.Reading
import Recolor.Proofs.Mosaic.Words

namespace Recolor

open Json (Document)
open Json.Document (Spells integerNumeral spells_array spells_integer spells_object spells_string)

namespace Json.Document

theorem int32?_number (i : Int32) : (number (integerNumeral i.toInt)).int32? = some i := by
  have least := i.le_toInt
  have greatest := i.toInt_lt
  have same : (number (integerNumeral i.toInt)).integer? = some i.toInt :=
    integer?_integerNumeral (by omega) (by omega)
  have within : (number (integerNumeral i.toInt)).within? (-2147483648) 2147483647 =
      some i.toInt := by
    rw [within?, same, Option.filter_some, if_pos]
    simp
    omega
  rw [int32?, within, Option.map_some, Int32.ofInt_toInt]

structure Spelling (α : Type) where
  json : α → Json
  document : α → Document
  ofDocument? : Document → Option α
  spells : ∀ x, Spells (json x).compact (document x)
  taken : ∀ x, ofDocument? (document x) = some x

namespace Spelling

variable {α : Type} (r : Spelling α)

theorem bind_read (x : α) : (read (r.json x).compact).bind r.ofDocument? = some x := by
  rw [(r.spells x).read, Option.bind_some, r.taken]

theorem compact_injective : Function.Injective fun x => (r.json x).compact := fun x y same => by
  have read := r.bind_read x
  rw [show (r.json x).compact = (r.json y).compact from same, r.bind_read] at read
  exact (Option.some.inj read).symm

def list : Spelling (List α) where
  json xs := .array (xs.map r.json)
  document xs := .array (xs.map r.document)
  ofDocument? := list? r.ofDocument?
  spells xs := spells_array (List.forall₂_map_left_iff.mpr
    (List.forall₂_map_right_iff.mpr (List.forall₂_same.mpr fun x _ => r.spells x)))
  taken xs := by
    have each := Mosaic.Words.mapM_eq_some (f := r.ofDocument? ∘ r.document) (g := id)
      fun x (_ : x ∈ xs) => r.taken x
    rw [list?, List.mapM_map, each, List.map_id]

end Spelling

end Json.Document

namespace Drawable

def document (d : Drawable) : Document :=
  .object [(some "texture", .string (some d.texture)),
    (some "directives", .string (some d.directives)),
    (some "pixel_x", .number (integerNumeral d.x.toInt)),
    (some "pixel_y", .number (integerNumeral d.y.toInt))]

theorem spells_document (d : Drawable) : Spells d.json.compact d.document :=
  spells_object (.cons ⟨rfl, spells_string _⟩ (.cons ⟨rfl, spells_string _⟩
    (.cons ⟨rfl, spells_integer _⟩ (.cons ⟨rfl, spells_integer _⟩ .nil))))

theorem ofDocument?_document (d : Drawable) : ofDocument? d.document = some d := by
  have fields : d.document.fields? fieldNames =
      some [.string (some d.texture), .string (some d.directives),
        .number (integerNumeral d.x.toInt), .number (integerNumeral d.y.toInt)] := by
    rfl
  simp [ofDocument?, fields, Json.Document.string?, Json.Document.int32?_number]

def spelling : Json.Document.Spelling Drawable :=
  ⟨json, document, ofDocument?, spells_document, ofDocument?_document⟩

end Drawable

namespace IconEntry

def document (e : IconEntry) : Document :=
  .object [(some "image", .string (some e.image)),
    (some "position", .array [.number (integerNumeral e.x.toInt),
      .number (integerNumeral e.y.toInt)])]

theorem spells_document (e : IconEntry) : Spells e.json.compact e.document :=
  spells_object (.cons ⟨rfl, spells_string _⟩ (.cons ⟨rfl, spells_array
    (.cons (spells_integer _) (.cons (spells_integer _) .nil))⟩ .nil))

theorem ofDocument?_document (e : IconEntry) : ofDocument? e.document = some e := by
  have fields : e.document.fields? fieldNames =
      some [.string (some e.image), .array [.number (integerNumeral e.x.toInt),
        .number (integerNumeral e.y.toInt)]] := by
    rfl
  simp [ofDocument?, fields, Json.Document.string?, Json.Document.list?,
    Json.Document.int32?_number]

def spelling : Json.Document.Spelling IconEntry :=
  ⟨json, document, ofDocument?, spells_document, ofDocument?_document⟩

end IconEntry

theorem Json.compact_records_read_back :
    (∀ d : Drawable, Drawable.read d.json.compact = some d) ∧
      (∀ e : IconEntry, IconEntry.read e.json.compact = some e) ∧
      (∀ ds : List Drawable, (Document.read (compact (.array (ds.map Drawable.json)))).bind
        (Document.list? Drawable.ofDocument?) = some ds) ∧
      (∀ es : List IconEntry, (Document.read (compact (.array (es.map IconEntry.json)))).bind
        (Document.list? IconEntry.ofDocument?) = some es) ∧
      Function.Injective (fun d : Drawable => d.json.compact) ∧
      Function.Injective (fun e : IconEntry => e.json.compact) ∧
      Function.Injective (fun ds : List Drawable => compact (.array (ds.map Drawable.json))) ∧
      Function.Injective (fun es : List IconEntry => compact (.array (es.map IconEntry.json))) :=
  ⟨Drawable.spelling.bind_read, IconEntry.spelling.bind_read, Drawable.spelling.list.bind_read,
    IconEntry.spelling.list.bind_read, Drawable.spelling.compact_injective,
    IconEntry.spelling.compact_injective, Drawable.spelling.list.compact_injective,
    IconEntry.spelling.list.compact_injective⟩

end Recolor
