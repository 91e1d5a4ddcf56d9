namespace TopicConsumer

/-- One value for each key, in the order in which the keys were first set. -/
abbrev Table (κ α : Type) := List (κ × α)

namespace Table

variable {κ α : Type} [DecidableEq κ]

def get? (key : κ) : Table κ α → Option α
  | [] => none
  | p :: rest => if p.1 = key then some p.2 else get? key rest

/-- Gives a key a value, in the place of the value it had. -/
def set (key : κ) (value : α) : Table κ α → Table κ α
  | [] => [(key, value)]
  | p :: rest => if p.1 = key then (key, value) :: rest else p :: set key value rest

def erase (key : κ) (table : Table κ α) : Table κ α := table.filter (·.1 ≠ key)

def modify (key : κ) (f : α → α) (table : Table κ α) : Table κ α :=
  table.map fun p => if p.1 = key then (p.1, f p.2) else p

def ofList (pairs : List (κ × α)) : Table κ α := pairs.foldl (fun table p => set p.1 p.2 table) []

theorem get?_set (table : Table κ α) (key k : κ) (value : α) :
    get? k (set key value table) = if k = key then some value else get? k table := by
  induction table with
  | nil => grind [set, get?]
  | cons p rest ih => grind [set, get?]

theorem get?_erase (table : Table κ α) (key k : κ) :
    get? k (erase key table) = if k = key then none else get? k table := by
  induction table with
  | nil => simp [erase, get?]
  | cons p rest ih =>
    rw [erase, List.filter_cons]
    rw [erase] at ih
    grind [get?]

theorem get?_modify (table : Table κ α) (key k : κ) (f : α → α) :
    get? k (modify key f table) = if k = key then (get? k table).map f else get? k table := by
  induction table with
  | nil => simp [modify, get?]
  | cons p rest ih =>
    rw [modify, List.map_cons]
    rw [modify] at ih
    grind [get?]

theorem keys_set (table : Table κ α) (key : κ) (value : α) :
    (set key value table).map Prod.fst =
      if key ∈ table.map Prod.fst then table.map Prod.fst else table.map Prod.fst ++ [key] := by
  induction table with
  | nil => rfl
  | cons p rest ih => grind [set]

theorem nodup_set {key : κ} {value : α} {table : Table κ α} (h : (table.map Prod.fst).Nodup) :
    ((set key value table).map Prod.fst).Nodup := by
  rw [keys_set]
  split
  next => exact h
  next hn =>
    refine List.nodup_append.mpr ⟨h, by simp, ?_⟩
    intro a ha b hb he
    rw [he, List.mem_singleton.mp hb] at ha
    exact hn ha

/-- Where no key is set twice, what a table holds is what it gives. -/
theorem mem_iff_get? {table : Table κ α} (h : (table.map Prod.fst).Nodup) {key : κ} {value : α} :
    (key, value) ∈ table ↔ get? key table = some value := by
  induction table with
  | nil => simp [get?]
  | cons p rest ih =>
    obtain ⟨hn, hr⟩ := List.nodup_cons.mp h
    have hrest : key = p.1 → (key, value) ∉ rest := fun he hm =>
      hn (he ▸ List.mem_map_of_mem (f := Prod.fst) hm)
    rw [get?, List.mem_cons, ih hr]
    split
    next he => grind
    next he => grind

end Table

end TopicConsumer
