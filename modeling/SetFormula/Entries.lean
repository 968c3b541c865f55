/-!
# Entries

Lists of values with names, each name once, in the order in which the names came first.

* `set` gives a name a value, in its place if it has one and at the end otherwise.
* `merge` takes the values of a list one after the other.
* `lastNamed?` looks up a name without regard to the case of its letters.
-/

namespace SetFormula.Entries

variable {α : Type}

/-- Give a name a value. A name that is there keeps its position. -/
def set (name : String) (value : α) : List (String × α) → List (String × α)
  | [] => [(name, value)]
  | (n, v) :: rest => if n = name then (n, value) :: rest else (n, v) :: set name value rest

theorem lookup_set (name : String) (value : α) (es : List (String × α)) (n : String) :
    (set name value es).lookup n = if n = name then some value else es.lookup n := by
  induction es with
  | nil =>
    by_cases h : n = name
    · simp [set, h]
    · simp [set, List.lookup_cons, h, beq_false_of_ne h]
  | cons e es ih =>
    obtain ⟨m, v⟩ := e
    by_cases hn : n = m
    · subst hn
      by_cases hm : n = name <;> simp [set, hm]
    · by_cases hm : m = name
      · simp [set, List.lookup_cons, hm, beq_false_of_ne (hm ▸ hn), hm ▸ hn]
      · simp [set, List.lookup_cons, hm, beq_false_of_ne hn, ih]

/-- The entries of a list in which names may come again: the last value of each name, at the position
of the first. -/
def merge (es : List (String × α)) : List (String × α) :=
  es.foldl (fun acc e => set e.1 e.2 acc) []

/-- The value of the last entry whose name is the given one in small letters. Capitals from A to Z are
enough for the names of settings: of the letters from a to z only `k`, which none of them has, is
the small form of another character. -/
def lastNamed? (name : String) (es : List (String × α)) : Option α :=
  (es.reverse.find? fun e => e.1.toLower == name).map (·.2)

end SetFormula.Entries
