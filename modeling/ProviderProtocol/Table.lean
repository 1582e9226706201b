/-!
# Tables: finite maps from names, kept as lists of pairs

Attributes, map entries and registered types are all found by name, and every answer lists them in a fixed
order.  A table is therefore the list of its pairs, in one of two orders:

* `insert` keeps the names strictly ascending by code point, each once (`Ascending`); `ofList` brings a list of pairs
  into this order, and of two pairs with one name the later one stays (`ofList_ascending`, `find?_ofList_cons`).
* `put` keeps the order of first insertion; a name that is there already keeps its position and takes the new
  definition.

Both insertions agree on what a later look-up finds: `find?_insert` and `find?_put` are the same equation.
-/
namespace ProviderProtocol.Table

def find? (name : String) : List (String × α) → Option α
  | []             => none
  | (k, a) :: rest => if k = name then some a else find? name rest

def has (name : String) (t : List (String × α)) : Bool := (find? name t).isSome

def names (t : List (String × α)) : List String := t.map Prod.fst

/-! ## Ascending tables -/

def Ascending (t : List (String × α)) : Prop := (names t).Pairwise (· < ·)

def insert (name : String) (a : α) : List (String × α) → List (String × α)
  | []             => [(name, a)]
  | (k, b) :: rest =>
    if name < k then (name, a) :: (k, b) :: rest
    else if k = name then (name, a) :: rest
    else (k, b) :: insert name a rest

def erase (name : String) : List (String × α) → List (String × α)
  | []             => []
  | (k, a) :: rest => if k = name then rest else (k, a) :: erase name rest

/-- Adds a pair, unless the name is there already. -/
def insertNew (name : String) (a : α) : List (String × α) → List (String × α)
  | []             => [(name, a)]
  | (k, b) :: rest =>
    if name < k then (name, a) :: (k, b) :: rest
    else if k = name then (k, b) :: rest
    else (k, b) :: insertNew name a rest

def ofList : List (String × α) → List (String × α)
  | []                => []
  | (name, a) :: rest => insertNew name a (ofList rest)

/-! ## Tables in order of insertion -/

def put (name : String) (a : α) : List (String × α) → List (String × α)
  | []             => [(name, a)]
  | (k, b) :: rest => if k = name then (k, a) :: rest else (k, b) :: put name a rest

/-! ## What a look-up finds -/

@[simp] theorem find?_nil (name : String) : find? (α := α) name [] = none := rfl

theorem find?_insert (name key : String) (a : α) (t : List (String × α)) :
    find? key (insert name a t) = if name = key then some a else find? key t := by
  induction t with
  | nil => simp [insert, find?]
  | cons e rest ih =>
    obtain ⟨k, b⟩ := e
    simp only [insert]
    split
    · rfl
    · split
      · subst_vars; simp only [find?]; split <;> rfl
      · simp only [find?, ih]; grind

theorem find?_put (name key : String) (a : α) (t : List (String × α)) :
    find? key (put name a t) = if name = key then some a else find? key t := by
  induction t with
  | nil => simp [put, find?]
  | cons e rest ih =>
    obtain ⟨k, b⟩ := e
    simp only [put]
    split
    · subst_vars; simp only [find?]; split <;> rfl
    · simp only [find?, ih]; grind

/-! ## Order -/

theorem mem_names_insert {name key : String} {a : α} {t : List (String × α)} :
    key ∈ names (insert name a t) ↔ key = name ∨ key ∈ names t := by
  induction t with
  | nil => simp [insert, names]
  | cons e rest ih =>
    obtain ⟨k, b⟩ := e
    simp only [insert]
    split
    · simp [names]
    · split
      · subst_vars; simp [names]
      · simp only [names, List.map_cons, List.mem_cons] at ih ⊢; rw [ih]; grind

theorem insert_ascending {name : String} {a : α} {t : List (String × α)} (h : Ascending t) :
    Ascending (insert name a t) := by
  induction t with
  | nil => simp [insert, Ascending, names]
  | cons e rest ih =>
    obtain ⟨k, b⟩ := e
    have hk : ∀ x ∈ names rest, k < x := by
      simpa [Ascending, names] using (List.pairwise_cons.1 h).1
    have hr : Ascending rest := (List.pairwise_cons.1 h).2
    simp only [insert]
    split
    · rename_i hlt
      refine List.pairwise_cons.2 ⟨fun x hx => ?_, h⟩
      rcases List.mem_cons.1 hx with rfl | hx
      · exact hlt
      · exact String.lt_trans hlt (hk x hx)
    · split
      · subst_vars; exact List.pairwise_cons.2 ⟨hk, hr⟩
      · rename_i hge hne
        refine List.pairwise_cons.2 ⟨fun x hx => ?_, ih hr⟩
        rcases mem_names_insert.1 hx with rfl | hx
        · exact Std.lt_of_le_of_ne (String.not_lt.1 hge) hne
        · exact hk x hx

theorem mem_names_insertNew {name key : String} {a : α} {t : List (String × α)} :
    key ∈ names (insertNew name a t) ↔ key = name ∨ key ∈ names t := by
  induction t with
  | nil => simp [insertNew, names]
  | cons e rest ih =>
    obtain ⟨k, b⟩ := e
    simp only [insertNew]
    split
    · simp [names]
    · split
      · subst_vars; simp [names]
      · simp only [names, List.map_cons, List.mem_cons] at ih ⊢; rw [ih]; grind

theorem insertNew_ascending {name : String} {a : α} {t : List (String × α)} (h : Ascending t) :
    Ascending (insertNew name a t) := by
  induction t with
  | nil => simp [insertNew, Ascending, names]
  | cons e rest ih =>
    obtain ⟨k, b⟩ := e
    have hk : ∀ x ∈ names rest, k < x := by
      simpa [Ascending, names] using (List.pairwise_cons.1 h).1
    have hr : Ascending rest := (List.pairwise_cons.1 h).2
    simp only [insertNew]
    split
    · rename_i hlt
      refine List.pairwise_cons.2 ⟨fun x hx => ?_, h⟩
      rcases List.mem_cons.1 hx with rfl | hx
      · exact hlt
      · exact String.lt_trans hlt (hk x hx)
    · split
      · exact h
      · rename_i hge hne
        refine List.pairwise_cons.2 ⟨fun x hx => ?_, ih hr⟩
        rcases mem_names_insertNew.1 hx with rfl | hx
        · exact Std.lt_of_le_of_ne (String.not_lt.1 hge) hne
        · exact hk x hx

theorem ofList_ascending : ∀ entries : List (String × α), Ascending (ofList entries)
  | []        => List.Pairwise.nil
  | _ :: rest => insertNew_ascending (ofList_ascending rest)

/-- A name that is not in an ascending table and comes before its first name is in it nowhere. -/
theorem find?_eq_none_of_lt {name : String} : ∀ {t : List (String × α)}, (∀ x ∈ names t, name < x) →
    find? name t = none
  | [], _          => rfl
  | (k, a) :: t, h => by
    have hk : name < k := h k (by simp [names])
    have hne : k ≠ name := fun e => String.lt_irrefl name (e ▸ hk)
    rw [find?, if_neg hne]
    exact find?_eq_none_of_lt fun x hx => h x (List.mem_cons_of_mem _ hx)

theorem find?_insertNew {name key : String} {a : α} {t : List (String × α)} (h : Ascending t) :
    find? key (insertNew name a t) = (find? key t).or (if name = key then some a else none) := by
  induction t with
  | nil => simp [insertNew, find?]
  | cons e rest ih =>
    obtain ⟨k, b⟩ := e
    have hk : ∀ x ∈ names rest, k < x := by
      simpa [Ascending, names] using (List.pairwise_cons.1 h).1
    have hr : Ascending rest := (List.pairwise_cons.1 h).2
    simp only [insertNew]
    split
    · rename_i hlt
      by_cases hn : name = key
      · subst hn
        have hnone : find? name ((k, b) :: rest) = none := find?_eq_none_of_lt fun x hx => by
          rcases List.mem_cons.1 hx with rfl | hx
          · exact hlt
          · exact String.lt_trans hlt (hk x hx)
        rw [hnone]; simp [find?]
      · rw [find?, if_neg hn]; simp [hn]
    · split
      · subst_vars
        simp only [find?]
        split <;> simp_all
      · simp only [find?, ih hr]
        split <;> simp

theorem find?_ofList_cons (name key : String) (a : α) (rest : List (String × α)) :
    find? key (ofList ((name, a) :: rest)) = (find? key (ofList rest)).or (if name = key then some a else none) :=
  find?_insertNew (ofList_ascending rest)

end ProviderProtocol.Table
