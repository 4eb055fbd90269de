import Recolor.Number.Decimal

namespace Recolor

inductive Json where
  | null
  | bool (value : Bool)
  | integer (value : Int)
  | real (value : Binary64)
  | string (text : String)
  | array (items : List Json)
  | object (members : List (String × Json))
deriving Repr, Inhabited

abbrev Json.Members : Type := List (String × Json)

namespace Json.Members

def get? (key : String) : Members → Option Json
  | [] => none
  | (k, v) :: ms => if k = key then some v else get? key ms

def insert (key : String) (value : Json) : Members → Members
  | [] => [(key, value)]
  | (k, v) :: ms => if k = key then (k, value) :: ms else (k, v) :: insert key value ms

def insertIfNew (key : String) (value : Json) (ms : Members) : Members :=
  match get? key ms with
  | some _ => ms
  | none => insert key value ms

def keys (ms : Members) : List String := ms.map Prod.fst

theorem get?_insert (key key' : String) (value : Json) (ms : Members) :
    get? key' (insert key value ms) = if key' = key then some value else get? key' ms := by
  induction ms with
  | nil => simp [insert, get?, eq_comm]
  | cons m ms ih =>
      obtain ⟨k, v⟩ := m
      by_cases h : k = key
      · subst h
        by_cases h' : key' = k
        · simp [insert, get?, h']
        · simp [insert, get?, h', Ne.symm h']
      · by_cases h' : k = key'
        · subst h'
          simp [insert, get?, h]
        · simp [insert, get?, h, h', ih]

theorem keys_insert (key : String) (value : Json) (ms : Members) :
    keys (insert key value ms) = if key ∈ keys ms then keys ms else keys ms ++ [key] := by
  induction ms with
  | nil => rfl
  | cons m ms ih =>
      obtain ⟨k, v⟩ := m
      by_cases h : k = key
      · subst h
        simp [insert, keys]
      · have h' : key ≠ k := fun e => h e.symm
        have hk : keys (insert key value ((k, v) :: ms)) = k :: keys (insert key value ms) := by
          simp [insert, keys, h]
        have hc : keys ((k, v) :: ms) = k :: keys ms := rfl
        rw [hk, ih, hc]
        by_cases hm : key ∈ keys ms <;> simp [hm, h']

end Json.Members

namespace Json

def ofBinary64 (x : Binary64) : Json := if x.isFinite then .real x else .null

end Json

end Recolor
