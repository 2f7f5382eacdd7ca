/-! # Sorted entries

Finite maps from texts as lists of entries in strictly increasing order of their keys. Keys are
compared by code points, which is the order of their UTF-8 bytes. -/

namespace Polystore
set_option autoImplicit false

abbrev Entries (α : Type) := List (String × α)

namespace Entries
variable {α β : Type}

def find? (key : String) (es : Entries α) : Option α := es.lookup key

def hasKey (key : String) (es : Entries α) : Bool := (es.lookup key).isSome

/-- Puts an entry in its place, over the entry with the same key if there is one. -/
def insert (key : String) (v : α) : Entries α → Entries α
  | [] => [(key, v)]
  | (k, w) :: r =>
    if key = k then (key, v) :: r
    else if key < k then (key, v) :: (k, w) :: r
    else (k, w) :: insert key v r

/-- The last entry of each key, sorted. -/
def ofList (es : List (String × α)) : Entries α :=
  es.foldl (fun acc e => insert e.1 e.2 acc) []

def keys (es : Entries α) : List String := es.map (·.1)

/-- Every key stands before every later one. -/
def Sorted (es : Entries α) : Prop := (es.map (·.1)).Pairwise (· < ·)

theorem find?_insert_self (key : String) (v : α) (es : Entries α) :
    find? key (insert key v es) = some v := by
  induction es with
  | nil => simp [insert, find?]
  | cons e r ih =>
    obtain ⟨k, w⟩ := e
    by_cases h : key = k
    · simp [insert, find?, h]
    · by_cases h' : key < k
      · simp [insert, find?, h, h']
      · have hb : (key == k) = false := by simpa using h
        simpa [insert, find?, h, h', List.lookup_cons, hb] using ih

theorem find?_insert_of_ne {key other : String} (v : α) (es : Entries α) (h : other ≠ key) :
    find? other (insert key v es) = find? other es := by
  have hb : (other == key) = false := by simpa using h
  induction es with
  | nil => simp [insert, find?, List.lookup_cons, hb]
  | cons e r ih =>
    obtain ⟨k, w⟩ := e
    by_cases hk : key = k
    · subst hk; simp [insert, find?, List.lookup_cons, hb]
    · by_cases h' : key < k
      · simp [insert, find?, hk, h', List.lookup_cons, hb]
      · simp only [find?] at ih
        simp [insert, find?, hk, h', List.lookup_cons, ih]

end Entries
end Polystore
