/-
  CiPipeline.Dict
  ───────────────
  **Dictionaries: values under distinct text keys.**

  A dictionary is its list of entries in increasing order of the keys, so two
  dictionaries with the same entries are equal.  Putting a value under a key that
  is there replaces it.  Main statements: `get?_insert` says what a look-up finds
  after a put, and `ofList_of_perm` that a dictionary is made again from its own
  entries, in whatever order they stand.
-/

namespace CiPipeline

/-- Values of one type under distinct text keys, in increasing order of the
keys. -/
structure Dict (α : Type) where
  entries : List (String × α)
  ordered : entries.Pairwise fun a b => a.1 < b.1

namespace Dict

variable {α : Type}

instance [DecidableEq α] : DecidableEq (Dict α) := fun a b =>
  decidable_of_iff (a.entries = b.entries)
    ⟨fun h => by cases a; cases b; cases h; rfl, fun h => by rw [h]⟩

/-- Equal entries, equal dictionaries. -/
theorem ext {a b : Dict α} (h : a.entries = b.entries) : a = b := by
  cases a; cases b; cases h; rfl

/-- The dictionary without entries. -/
def empty : Dict α := ⟨[], .nil⟩

instance : Inhabited (Dict α) := ⟨empty⟩

/-- The value under a key. -/
def get? (d : Dict α) (key : String) : Option α :=
  (d.entries.find? fun e => e.1 = key).map (·.2)

/-! ## §1. Putting a value. -/

/-- The ordered entries with a value put under a key. -/
def insertEntry (key : String) (value : α) : List (String × α) → List (String × α)
  | [] => [(key, value)]
  | e :: rest =>
      if key < e.1 then (key, value) :: e :: rest
      else if key = e.1 then (key, value) :: rest
      else e :: insertEntry key value rest

/-- The keys after a put are the keys before it and the key. -/
theorem mem_insertEntry {key : String} {value : α} {e : String × α} :
    ∀ {es : List (String × α)}, e ∈ insertEntry key value es → e.1 = key ∨ e ∈ es
  | [], h => by
      simp only [insertEntry, List.mem_singleton] at h
      exact .inl (by rw [h])
  | f :: rest, h => by
      unfold insertEntry at h
      split at h
      · rcases List.mem_cons.mp h with h | h
        · exact .inl (by rw [h])
        · exact .inr h
      · split at h
        · rcases List.mem_cons.mp h with h | h
          · exact .inl (by rw [h])
          · exact .inr (List.mem_cons_of_mem _ h)
        · rcases List.mem_cons.mp h with h | h
          · exact .inr (h ▸ List.mem_cons_self)
          · rcases mem_insertEntry h with h | h
            · exact .inl h
            · exact .inr (List.mem_cons_of_mem _ h)

/-- Of two different keys one is smaller. -/
theorem lt_of_not_lt_of_ne {a b : String} (h : ¬a < b) (hne : a ≠ b) : b < a := by
  by_cases hba : b < a
  · exact hba
  · exact absurd (String.le_antisymm (String.not_lt.mp hba) (String.not_lt.mp h)) hne

/-- A put keeps the order of the keys. -/
theorem ordered_insertEntry (key : String) (value : α) :
    ∀ {es : List (String × α)}, (es.Pairwise fun a b => a.1 < b.1) →
      (insertEntry key value es).Pairwise fun a b => a.1 < b.1
  | [], _ => by simp [insertEntry]
  | e :: rest, h => by
      have hhead := (List.pairwise_cons.mp h).1
      have htail := (List.pairwise_cons.mp h).2
      unfold insertEntry
      split
      case isTrue hlt =>
        refine List.pairwise_cons.mpr ⟨fun f hf => ?_, h⟩
        rcases List.mem_cons.mp hf with rfl | hf
        · exact hlt
        · exact String.lt_trans hlt (hhead f hf)
      case isFalse hlt =>
        split
        case isTrue heq =>
          exact List.pairwise_cons.mpr ⟨fun f hf => heq ▸ hhead f hf, htail⟩
        case isFalse hne =>
          refine List.pairwise_cons.mpr ⟨fun f hf => ?_, ordered_insertEntry key value htail⟩
          rcases mem_insertEntry hf with heq | hf
          · rw [heq]
            exact lt_of_not_lt_of_ne hlt hne
          · exact hhead f hf

/-- The dictionary with a value put under a key. -/
def insert (d : Dict α) (key : String) (value : α) : Dict α :=
  ⟨insertEntry key value d.entries, ordered_insertEntry key value d.ordered⟩

/-- The dictionary of a list of entries; of several under one key the last one
counts. -/
def ofList (es : List (String × α)) : Dict α :=
  es.foldl (fun d e => d.insert e.1 e.2) empty

/-! ## §2. Looking up after a put. -/

theorem find?_insertEntry (key : String) (value : α) (k : String) :
    ∀ es : List (String × α),
      ((insertEntry key value es).find? fun e => e.1 = k).map (·.2)
        = if k = key then some value else (es.find? fun e => e.1 = k).map (·.2)
  | [] => by
      by_cases h : k = key
      · simp [insertEntry, h]
      · simp [insertEntry, h, Ne.symm h]
  | e :: rest => by
      have ih := find?_insertEntry key value k rest
      unfold insertEntry
      split
      · by_cases h : k = key
        · simp [h]
        · simp [h, Ne.symm h, List.find?_cons]
      · split
        case isTrue heq =>
          by_cases h : k = key
          · simp [h]
          · have he : ¬e.1 = k := fun he => h (by rw [heq, he])
            simp [h, Ne.symm h, he]
        case isFalse hne =>
          by_cases he : e.1 = k
          · have hk : ¬k = key := fun hk => hne (by rw [he, hk])
            simp [he, hk]
          · simpa [List.find?_cons, he] using ih

/-- **A look-up after a put** finds the value under its key and under all other
keys what was there. -/
theorem get?_insert (d : Dict α) (key : String) (value : α) (k : String) :
    (d.insert key value).get? k = if k = key then some value else d.get? k :=
  find?_insertEntry key value k d.entries

theorem insertEntry_insertEntry (key : String) (first last : α) :
    ∀ es : List (String × α),
      insertEntry key last (insertEntry key first es) = insertEntry key last es
  | [] => by simp [insertEntry]
  | e :: rest => by
      by_cases hlt : key < e.1
      · simp [insertEntry, hlt]
      · by_cases heq : key = e.1
        · simp [insertEntry, heq]
        · simp only [insertEntry, hlt, heq, if_false]
          rw [insertEntry_insertEntry key first last rest]

/-- Of two values put under one key the last one counts. -/
theorem insert_insert (d : Dict α) (key : String) (first last : α) :
    (d.insert key first).insert key last = d.insert key last :=
  ext (insertEntry_insertEntry key first last d.entries)

@[simp] theorem get?_empty (k : String) : (empty : Dict α).get? k = none := rfl

/-! ## §3. A dictionary from its own entries. -/

/-- A put of a key above all others goes to the end. -/
theorem insertEntry_of_above (key : String) (value : α) :
    ∀ {es : List (String × α)}, (∀ e ∈ es, e.1 < key) →
      insertEntry key value es = es ++ [(key, value)]
  | [], _ => rfl
  | e :: rest, h => by
      have he := h e List.mem_cons_self
      have hlt : ¬key < e.1 := fun hk => String.lt_irrefl _ (String.lt_trans he hk)
      have hne : ¬key = e.1 := fun hk => String.lt_irrefl e.1 (by rw [hk] at he; exact he)
      simp only [insertEntry, hlt, hne, if_false, List.cons_append]
      rw [insertEntry_of_above key value fun f hf => h f (List.mem_cons_of_mem _ hf)]

private theorem entries_foldl_insert :
    ∀ (es : List (String × α)) (d : Dict α),
      ((d.entries ++ es).Pairwise fun a b => a.1 < b.1) →
      (es.foldl (fun d e => d.insert e.1 e.2) d).entries = d.entries ++ es
  | [], d, _ => by simp
  | e :: rest, d, h => by
      have habove : ∀ f ∈ d.entries, f.1 < e.1 := fun f hf =>
        (List.pairwise_append.mp h).2.2 f hf e List.mem_cons_self
      have hinsert : (d.insert e.1 e.2).entries = d.entries ++ [e] :=
        insertEntry_of_above e.1 e.2 habove
      rw [List.foldl_cons, entries_foldl_insert rest (d.insert e.1 e.2), hinsert]
      · simp
      · rw [hinsert]
        simpa using h

/-- **A dictionary is made again from its own entries.** -/
theorem ofList_entries (d : Dict α) : ofList d.entries = d :=
  ext (entries_foldl_insert d.entries empty d.ordered)

/-- The dictionary with a function applied to every value. -/
def mapValues {β : Type} (f : α → β) (d : Dict α) : Dict β :=
  ⟨d.entries.map fun e => (e.1, f e.2), by
    rw [List.pairwise_map]
    exact d.ordered⟩

/-! ## §4. The order of entries. -/

theorem find?_of_mem : ∀ {es : List (String × α)}, (es.Pairwise fun a b => a.1 < b.1) →
    ∀ e ∈ es, (es.find? fun f => f.1 = e.1) = some e
  | [], _, e, he => nomatch he
  | f :: rest, h, e, he => by
      have hhead := (List.pairwise_cons.mp h).1
      rcases List.mem_cons.mp he with rfl | he
      · simp
      · have hne : ¬f.1 = e.1 := fun heq => String.lt_irrefl e.1 (heq ▸ hhead e he)
        have ih := find?_of_mem (List.pairwise_cons.mp h).2 e he
        simpa [List.find?_cons, hne] using ih

theorem mem_entries_iff {d : Dict α} {e : String × α} :
    e ∈ d.entries ↔ d.get? e.1 = some e.2 := by
  unfold get?
  constructor
  · intro he
    rw [find?_of_mem d.ordered e he]
    rfl
  · intro hfound
    obtain ⟨f, hf, hvalue⟩ := Option.map_eq_some_iff.mp hfound
    have hkey : f.1 = e.1 := by simpa using List.find?_some hf
    have heq : f = e := Prod.ext hkey hvalue
    exact heq ▸ List.mem_of_find?_eq_some hf

/-- Two dictionaries are equal if every look-up finds the same. -/
theorem ext_get? {a b : Dict α} (h : ∀ key, a.get? key = b.get? key) : a = b := by
  have hnodup (d : Dict α) : d.entries.Nodup :=
    List.nodup_iff_pairwise_ne.mpr <| d.ordered.imp fun {e f} hlt heq => by
      rw [heq] at hlt
      exact String.lt_irrefl f.1 hlt
  have hperm : a.entries.Perm b.entries := by
    refine (List.perm_ext_iff_of_nodup (hnodup a) (hnodup b)).mpr fun e => ?_
    rw [mem_entries_iff, mem_entries_iff, h]
  refine ext (hperm.eq_of_pairwise (fun e f _ _ hef hfe => ?_) a.ordered b.ordered)
  exact absurd (String.lt_trans hef hfe) (String.lt_irrefl _)

/-- Two puts under different keys may change places. -/
theorem insert_comm (d : Dict α) {k l : String} (v w : α) (h : k ≠ l) :
    (d.insert k v).insert l w = (d.insert l w).insert k v := by
  refine ext_get? fun key => ?_
  simp only [get?_insert]
  by_cases hk : key = k
  · have hl : ¬key = l := fun hl => h (hk.symm.trans hl)
    simp [hk, h]
  · simp [hk]

/-- **A dictionary is made from its own entries in any order.** -/
theorem ofList_of_perm {es : List (String × α)} {d : Dict α} (h : es.Perm d.entries) :
    ofList es = d := by
  have hdistinct : ∀ e ∈ d.entries, ∀ f ∈ d.entries, e.1 = f.1 → e = f := by
    intro e he f hf hkey
    have hvalue : some e.2 = some f.2 := by
      rw [← mem_entries_iff.mp he, ← mem_entries_iff.mp hf, hkey]
    exact Prod.ext hkey (Option.some.inj hvalue)
  calc ofList es
      = ofList d.entries := by
        refine h.foldl_eq' (fun e he f hf z => ?_) empty
        by_cases hkey : e.1 = f.1
        · rw [hdistinct e (h.mem_iff.mp he) f (h.mem_iff.mp hf) hkey]
        · exact insert_comm z e.2 f.2 hkey
    _ = d := ofList_entries d

end Dict

end CiPipeline
