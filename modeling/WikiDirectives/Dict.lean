import WikiDirectives.Text.Basic

/-! Finite maps from names, kept in ascending order of the names. -/
namespace WikiDirectives

/-- The names ascend strictly, so each occurs once. -/
def Ascending {α : Type} (entries : List (Text × α)) : Prop :=
  entries.Pairwise fun a b => Text.before a.1 b.1 = true

/-- A finite map from names to values. -/
structure Dict (α : Type) where
  entries : List (Text × α) := []
  ascending : Ascending entries := by exact .nil

namespace Dict
variable {α : Type}

/-- The entries with a value put under a name, in place of the value that it had. -/
def place (name : Text) (value : α) : List (Text × α) → List (Text × α)
  | [] => [(name, value)]
  | (other, old) :: rest =>
    if name = other then (name, value) :: rest
    else if Text.before name other then (name, value) :: (other, old) :: rest
    else (other, old) :: place name value rest

theorem mem_place {name : Text} {value : α} {entries : List (Text × α)} {entry : Text × α}
    (h : entry ∈ place name value entries) : entry = (name, value) ∨ entry ∈ entries := by
  fun_induction place name value entries with
  | case1 => exact .inl (List.mem_singleton.mp h)
  | case2 old rest =>
    rcases List.mem_cons.mp h with rfl | hrest
    · exact .inl rfl
    · exact .inr (List.mem_cons_of_mem _ hrest)
  | case3 other old rest hne hlt => exact List.mem_cons.mp h
  | case4 other old rest hne hlt ih =>
    rcases List.mem_cons.mp h with rfl | hrest
    · exact .inr List.mem_cons_self
    · exact (ih hrest).imp_right (List.mem_cons_of_mem _)

theorem place_ascending {name : Text} {value : α} {entries : List (Text × α)}
    (h : Ascending entries) : Ascending (place name value entries) := by
  unfold Ascending at h ⊢
  fun_induction place name value entries with
  | case1 => simp
  | case2 old rest =>
    simp only [List.pairwise_cons] at h ⊢
    exact h
  | case3 other old rest _ hlt =>
    simp only [List.pairwise_cons, List.mem_cons] at h ⊢
    refine ⟨?_, h⟩
    rintro entry (rfl | hmem)
    · exact hlt
    · exact Text.before_trans hlt (h.1 entry hmem)
  | case4 other old rest hne hlt ih =>
    simp only [List.pairwise_cons] at h ⊢
    refine ⟨fun entry hmem => ?_, ih h.2⟩
    rcases mem_place hmem with rfl | hmem
    · rcases Text.before_or_eq_or_before name other with hb | rfl | hb
      · exact absurd hb hlt
      · exact absurd rfl hne
      · exact hb
    · exact h.1 entry hmem

def empty : Dict α := {}

instance : Inhabited (Dict α) := ⟨empty⟩

def get? (d : Dict α) (name : Text) : Option α :=
  (d.entries.find? fun entry => entry.1 = name).map (·.2)

def contains (d : Dict α) (name : Text) : Bool := (d.get? name).isSome

def names (d : Dict α) : List Text := d.entries.map (·.1)

def size (d : Dict α) : Nat := d.entries.length

/-- Puts a value under a name, in place of the value that it had. -/
def insert (d : Dict α) (name : Text) (value : α) : Dict α :=
  ⟨place name value d.entries, place_ascending d.ascending⟩

/-- Puts a value under a name that has none. -/
def insertNew (d : Dict α) (name : Text) (value : α) : Dict α :=
  if d.contains name then d else d.insert name value

/-- The map of a list of entries, later entries winning. -/
def ofList (entries : List (Text × α)) : Dict α :=
  entries.foldl (fun d entry => d.insert entry.1 entry.2) empty

/-! ## Look-ups -/

theorem find?_place (name key : Text) (value : α) (entries : List (Text × α)) :
    ((place name value entries).find? fun entry => entry.1 = key).map (·.2) =
      if key = name then some value
      else (entries.find? fun entry => entry.1 = key).map (·.2) := by
  fun_induction place name value entries with
  | case1 => by_cases h : key = name <;> simp [h, eq_comm]
  | case2 old rest => by_cases h : key = name <;> simp [h, eq_comm]
  | case3 other old rest _ _ => by_cases h : key = name <;> simp [h, eq_comm]
  | case4 other old rest hne _ ih =>
    by_cases ho : other = key
    · subst ho
      simp [Ne.symm hne]
    · simpa [ho] using ih

theorem get?_insert (d : Dict α) (name key : Text) (value : α) :
    (d.insert name value).get? key = if key = name then some value else d.get? key :=
  find?_place name key value d.entries

theorem get?_empty (name : Text) : (empty : Dict α).get? name = none := rfl

theorem get?_insertNew (d : Dict α) (name key : Text) (value : α) :
    (d.insertNew name value).get? key =
      (d.get? key).or (if key = name then some value else none) := by
  unfold insertNew contains
  split
  · next h =>
    obtain ⟨old, hold⟩ := Option.isSome_iff_exists.mp h
    by_cases hk : key = name
    · subst hk
      simp [hold]
    · simp [hk]
  · next h =>
    rw [get?_insert]
    by_cases hk : key = name
    · subst hk
      simp_all
    · simp [hk]

theorem get?_eq_some_iff {d : Dict α} {name : Text} {value : α} :
    d.get? name = some value ↔ (name, value) ∈ d.entries := by
  obtain ⟨entries, h⟩ := d
  unfold Ascending at h
  simp only [get?]
  induction entries with
  | nil => simp
  | cons entry rest ih =>
    obtain ⟨key, old⟩ := entry
    simp only [List.pairwise_cons] at h
    have ih := ih h.2
    by_cases hk : key = name
    · subst hk
      have hnot : (key, value) ∉ rest := fun hmem => by
        have := h.1 _ hmem
        simp [Text.before_irrefl] at this
      simp [hnot, eq_comm]
    · simp [hk, Ne.symm hk, ih]

/-- An ascending list is fixed by its members. -/
theorem eq_of_mem_iff {xs ys : List (Text × α)} (hx : Ascending xs) (hy : Ascending ys)
    (hmem : ∀ entry, entry ∈ xs ↔ entry ∈ ys) : xs = ys := by
  unfold Ascending at hx hy
  have hasymm : ∀ {a b : Text × α}, Text.before a.1 b.1 = true → Text.before b.1 a.1 = true →
      False := fun hab hba => by simpa [Text.before_irrefl] using Text.before_trans hab hba
  induction xs generalizing ys with
  | nil => cases ys with
    | nil => rfl
    | cons y ys => exact absurd ((hmem y).mpr (by simp)) (by simp)
  | cons x xs ih => cases ys with
    | nil => exact absurd ((hmem x).mp (by simp)) (by simp)
    | cons y ys =>
      simp only [List.pairwise_cons] at hx hy
      have hxy : x = y := by
        rcases List.mem_cons.mp ((hmem x).mp (by simp)) with h₁ | h₁
        · exact h₁
        · rcases List.mem_cons.mp ((hmem y).mpr (by simp)) with h₂ | h₂
          · exact h₂.symm
          · exact (hasymm (hy.1 x h₁) (hx.1 y h₂)).elim
      subst hxy
      rw [ih hx.2 hy.2 fun entry => ⟨fun hin => ?_, fun hin => ?_⟩]
      · rcases List.mem_cons.mp ((hmem entry).mp (List.mem_cons_of_mem _ hin)) with rfl | hin'
        · exact (hasymm (hx.1 entry hin) (hx.1 entry hin)).elim
        · exact hin'
      · rcases List.mem_cons.mp ((hmem entry).mpr (List.mem_cons_of_mem _ hin)) with rfl | hin'
        · exact (hasymm (hy.1 entry hin) (hy.1 entry hin)).elim
        · exact hin'

end Dict

end WikiDirectives
