import ExchangeClient.Dictionary
import Mathlib.Data.List.Induction
import Mathlib.Data.List.Nodup

/-!
# What an insertion changes

An insertion leaves exactly one entry with its key and does not touch those with
other keys. So what is found in a dictionary made from a row of entries is the
last entry of the row with that key, and where no key stands twice the order of
the row does not matter.
-/

namespace ExchangeClient.Entries

variable {α : Type}

theorem filter_above {k : String} {entries : List (String × α)}
    (above : ∀ e ∈ entries, k < e.1) : (entries.filter fun e => e.1 == k) = [] := by
  apply List.filter_eq_nil_iff.2
  intro e he same
  exact String.lt_irrefl k (beq_iff_eq.1 same ▸ above e he)

/-- The key of an insertion is in the row once. -/
theorem filter_insert_self {k : String} {v : α} {entries : List (String × α)}
    (ascending : entries.Pairwise fun a b => a.1 < b.1) :
    ((insert k v entries).filter fun e => e.1 == k) = [(k, v)] := by
  induction entries with
  | nil => simp [insert]
  | cons a rest ih =>
    obtain ⟨habove, hrest⟩ := List.pairwise_cons.1 ascending
    simp only [insert]
    split
    · rename_i hless
      have hall : ∀ e ∈ a :: rest, k < e.1 := by
        intro e he
        rcases List.mem_cons.1 he with rfl | he
        · exact hless
        · exact String.lt_trans hless (habove e he)
      rw [List.filter_cons_of_pos (by simp), filter_above hall]
    · rename_i hnot
      split
      · rename_i hless
        have hother : ¬((a.1 == k) = true) := by
          intro same
          exact String.lt_irrefl k (beq_iff_eq.1 same ▸ hless)
        rw [List.filter_cons, if_neg hother, ih hrest]
      · rename_i hnot'
        have hsame : k = a.1 := String.le_antisymm (String.not_lt.1 hnot') (String.not_lt.1 hnot)
        rw [List.filter_cons_of_pos (by simp), filter_above (hsame ▸ habove)]

/-- Entries with other keys stay as they are. -/
theorem filter_insert_other (k : String) (v : α) (entries : List (String × α)) :
    ((insert k v entries).filter fun e => e.1 != k) = entries.filter fun e => e.1 != k := by
  induction entries with
  | nil => simp [insert]
  | cons a rest ih =>
    simp only [insert]
    split
    · rw [List.filter_cons_of_neg (by simp)]
    · rename_i hnot
      split
      · rw [List.filter_cons, List.filter_cons, ih]
      · rename_i hnot'
        have hsame : k = a.1 := String.le_antisymm (String.not_lt.1 hnot') (String.not_lt.1 hnot)
        rw [List.filter_cons_of_neg (by simp), List.filter_cons_of_neg (by simp [hsame])]

/-! ## Looking up -/

theorem find?_cons (k : String) (e : String × α) (entries : List (String × α)) :
    find? k (e :: entries) = if e.1 = k then some e.2 else find? k entries := by
  simp only [find?]
  by_cases same : e.1 = k
  · have hself : (e.1 == k) = true := beq_iff_eq.2 same
    rw [if_pos same, List.find?_cons, hself, Option.map_some]
  · have hother : (e.1 == k) = false := beq_eq_false_iff_ne.2 same
    rw [if_neg same, List.find?_cons, hother]

/-- An insertion is found under its key, and everything else where it was. -/
theorem find?_insert (k : String) (v : α) (k' : String) (entries : List (String × α)) :
    find? k' (insert k v entries) = if k = k' then some v else find? k' entries := by
  induction entries with
  | nil => rw [insert, find?_cons]
  | cons a rest ih =>
    simp only [insert]
    split
    · rw [find?_cons]
    · rename_i hnot
      split
      · rename_i hless
        rw [find?_cons, find?_cons, ih]
        by_cases hself : a.1 = k'
        · have hother : k ≠ k' := by
            rintro rfl
            exact String.lt_irrefl a.1 (hself ▸ hless)
          rw [if_pos hself, if_neg hother, if_pos hself]
        · rw [if_neg hself, if_neg hself]
      · rename_i hnot'
        have hsame : k = a.1 := String.le_antisymm (String.not_lt.1 hnot') (String.not_lt.1 hnot)
        rw [find?_cons, find?_cons, hsame]
        by_cases hself : a.1 = k'
        · rw [if_pos hself, if_pos hself]
        · rw [if_neg hself, if_neg hself, if_neg hself]

/-- Entries that are left out are not looked for. -/
theorem find?_filter_ne {k k' : String} (other : k ≠ k') (entries : List (String × α)) :
    find? k (entries.filter fun e => e.1 != k') = find? k entries := by
  induction entries with
  | nil => rfl
  | cons a rest ih =>
    rw [List.filter_cons, find?_cons]
    by_cases hkept : a.1 = k'
    · have hself : ¬a.1 = k := fun same => other (same.symm.trans hkept)
      rw [if_neg (by simp [hkept]), if_neg hself, ih]
    · rw [if_pos (by simp [hkept]), find?_cons, ih]

/-- In a row with distinct keys every entry is found under its key. -/
theorem find?_of_mem {entries : List (String × α)} (distinct : (entries.map (·.1)).Nodup)
    {k : String} {v : α} (mem : (k, v) ∈ entries) : find? k entries = some v := by
  induction entries with
  | nil => cases mem
  | cons a rest ih =>
    obtain ⟨hfresh, hrest⟩ := List.nodup_cons.1 distinct
    rw [find?_cons]
    rcases List.mem_cons.1 mem with rfl | hlater
    · rw [if_pos rfl]
    · have hother : a.1 ≠ k := by
        rintro rfl
        exact hfresh (List.mem_map.2 ⟨_, hlater, rfl⟩)
      rw [if_neg hother, ih hrest hlater]

theorem isSome_find? {k : String} {entries : List (String × α)} :
    (find? k entries).isSome = true ↔ k ∈ entries.map (·.1) := by
  simp [find?]

/-- What is found in a row is in it. -/
theorem mem_of_find? {k : String} {v : α} {entries : List (String × α)}
    (found : find? k entries = some v) : (k, v) ∈ entries := by
  obtain ⟨e, he, rfl⟩ := Option.map_eq_some_iff.1 found
  have hkey := List.find?_some he
  rw [← beq_iff_eq.1 hkey]
  exact List.mem_of_find?_eq_some he

theorem find?_append (k : String) (before after : List (String × α)) :
    find? k (before ++ after) = (find? k before).or (find? k after) := by
  rw [find?, find?, find?, List.find?_append, Option.map_or]

/-- Under a key is found what is made of the value that was there. -/
theorem find?_map {β : Type} (f : String → α → β) (k : String) (entries : List (String × α)) :
    find? k (entries.map fun e => (e.1, f e.1 e.2)) = (find? k entries).map (f k) := by
  induction entries with
  | nil => rfl
  | cons a rest ih =>
    rw [List.map_cons, find?_cons, find?_cons, ih]
    by_cases hself : a.1 = k
    · rw [if_pos hself, if_pos hself, hself, Option.map_some]
    · rw [if_neg hself, if_neg hself]

/-! ## Rows in any order -/

/-- An entry with a new key is added to those that are there. -/
theorem insert_perm {k : String} {v : α} {entries : List (String × α)}
    (fresh : k ∉ entries.map (·.1)) : (insert k v entries).Perm ((k, v) :: entries) := by
  induction entries with
  | nil => exact .refl _
  | cons a rest ih =>
    have hnew : ¬k = a.1 ∧ k ∉ rest.map (·.1) := by simpa using fresh
    simp only [insert]
    split
    · exact .refl _
    · rename_i hnot
      split
      · exact ((ih hnew.2).cons a).trans (.swap (k, v) a rest)
      · rename_i hnot'
        have hsame : k = a.1 := String.le_antisymm (String.not_lt.1 hnot') (String.not_lt.1 hnot)
        exact absurd hsame hnew.1

/-- An entry with a new key is put between those before and those after it. -/
theorem insert_eq_append {k : String} {v : α} {entries : List (String × α)}
    (ascending : entries.Pairwise fun a b => a.1 < b.1) (fresh : k ∉ entries.map (·.1)) :
    ∃ before after, entries = before ++ after ∧ insert k v entries = before ++ (k, v) :: after ∧
      (∀ e ∈ before, e.1 < k) ∧ ∀ e ∈ after, k < e.1 := by
  induction entries with
  | nil => exact ⟨[], [], rfl, rfl, nofun, nofun⟩
  | cons a rest ih =>
    obtain ⟨habove, hrest⟩ := List.pairwise_cons.1 ascending
    have hnew : ¬k = a.1 ∧ k ∉ rest.map (·.1) := by simpa using fresh
    simp only [insert]
    split
    · rename_i hless
      refine ⟨[], a :: rest, rfl, rfl, nofun, List.forall_mem_cons.2 ⟨hless, ?_⟩⟩
      exact fun e he => String.lt_trans hless (habove e he)
    · rename_i hnot
      split
      · rename_i hless
        obtain ⟨before, after, rfl, hinsert, hbefore, hafter⟩ := ih hrest hnew.2
        exact ⟨a :: before, after, rfl, congrArg (a :: ·) hinsert,
          List.forall_mem_cons.2 ⟨hless, hbefore⟩, hafter⟩
      · rename_i hnot'
        have hsame : k = a.1 := String.le_antisymm (String.not_lt.1 hnot') (String.not_lt.1 hnot)
        exact absurd hsame hnew.1

end ExchangeClient.Entries

namespace ExchangeClient.Dictionary

variable {α : Type}

theorem find?_insert (d : Dictionary α) (k : String) (v : α) (k' : String) :
    (d.insert k v).find? k' = if k = k' then some v else d.find? k' :=
  Entries.find?_insert k v k' d.entries

theorem ofList_append (entries : List (String × α)) (e : String × α) :
    ofList (entries ++ [e]) = (ofList entries).insert e.1 e.2 := by
  rw [ofList, List.foldl_append]
  rfl

/-- Of the entries with one key the last one counts. -/
theorem find?_ofList (k : String) (entries : List (String × α)) :
    (ofList entries).find? k = Entries.find? k entries.reverse := by
  induction entries using List.reverseRecOn with
  | nil => rfl
  | append_singleton entries e ih =>
    rw [ofList_append, find?_insert, ih, List.reverse_append, List.reverse_singleton,
      List.singleton_append, Entries.find?_cons]

theorem find?_ofList_of_mem {entries : List (String × α)} (distinct : (entries.map (·.1)).Nodup)
    {k : String} {v : α} (mem : (k, v) ∈ entries) : (ofList entries).find? k = some v := by
  have hreversed : (entries.reverse.map (·.1)).Nodup := by
    rw [List.map_reverse]
    exact (List.reverse_perm _).nodup_iff.2 distinct
  rw [find?_ofList]
  exact Entries.find?_of_mem hreversed (List.mem_reverse.2 mem)

theorem entries_foldl_insert {held : Dictionary α} {entries : List (String × α)}
    (distinct : (entries.map (·.1)).Nodup)
    (fresh : ∀ k ∈ entries.map (·.1), k ∉ held.entries.map (·.1)) :
    (entries.foldl (fun d e => d.insert e.1 e.2) held).entries.Perm (entries ++ held.entries) := by
  induction entries generalizing held with
  | nil => exact .refl _
  | cons e entries ih =>
    obtain ⟨hnew, hrest⟩ := List.nodup_cons.1 distinct
    have hinsert : (held.insert e.1 e.2).entries.Perm (e :: held.entries) :=
      Entries.insert_perm (fresh e.1 List.mem_cons_self)
    have hfresh : ∀ k ∈ entries.map (·.1), k ∉ (held.insert e.1 e.2).entries.map (·.1) := by
      intro k hk hmem
      rcases List.mem_cons.1 ((hinsert.map (·.1)).mem_iff.1 hmem) with rfl | hheld
      · exact hnew hk
      · exact fresh k (List.mem_cons_of_mem e.1 hk) hheld
    have hlater := (ih hrest hfresh).trans (hinsert.append_left entries)
    exact hlater.trans List.perm_middle

theorem keys_distinct (d : Dictionary α) : (d.entries.map (·.1)).Nodup := by
  rw [List.Nodup, List.pairwise_map]
  apply d.ascending.imp
  intro a b hless same
  exact String.lt_irrefl b.1 (same ▸ hless)

theorem eq_empty_iff {d : Dictionary α} :
    d = .empty ↔ ∀ k, (d.find? k).isSome = false := by
  constructor
  · rintro rfl k
    rfl
  · intro hnone
    obtain ⟨entries, ascending⟩ := d
    cases entries with
    | nil => rfl
    | cons e entries =>
      have hfound : Entries.find? e.1 (e :: entries) = some e.2 :=
        Entries.find?_of_mem (keys_distinct ⟨_, ascending⟩) List.mem_cons_self
      have hmissing : (Entries.find? e.1 (e :: entries)).isSome = false := hnone e.1
      rw [hfound] at hmissing
      cases hmissing

/-- Just the rows in which no key stands twice are kept as they are, but for their order. -/
theorem entries_ofList_perm_iff {entries : List (String × α)} :
    (ofList entries).entries.Perm entries ↔ (entries.map (·.1)).Nodup := by
  constructor
  · intro hperm
    exact (hperm.map (·.1)).nodup_iff.1 (keys_distinct _)
  · intro hdistinct
    have hentries : (ofList entries).entries.Perm (entries ++ []) :=
      entries_foldl_insert hdistinct fun _ _ => List.not_mem_nil
    rwa [List.append_nil] at hentries

/-- A dictionary is made from its own entries in any order. -/
theorem ofList_of_perm {d : Dictionary α} {entries : List (String × α)}
    (perm : d.entries.Perm entries) : ofList entries = d := by
  have hentries : (ofList entries).entries.Perm entries :=
    entries_ofList_perm_iff.2 ((perm.map (·.1)).nodup_iff.1 d.keys_distinct)
  apply ext_entries
  apply (hentries.trans perm.symm).eq_of_pairwise ?_ (ofList entries).ascending d.ascending
  intro a b _ _ hless hmore
  exact absurd hmore (String.lt_asymm hless)

theorem find?_eq_some_iff {d : Dictionary α} {k : String} {v : α} :
    d.find? k = some v ↔ (k, v) ∈ d.entries :=
  ⟨Entries.mem_of_find?, Entries.find?_of_mem d.keys_distinct⟩

/-- Dictionaries are told apart by what is found in them. -/
theorem ext_find? {d e : Dictionary α} (same : ∀ k, d.find? k = e.find? k) : d = e := by
  have hmem : ∀ x, x ∈ d.entries ↔ x ∈ e.entries := by
    rintro ⟨k, v⟩
    rw [← find?_eq_some_iff, ← find?_eq_some_iff, same]
  have hperm : d.entries.Perm e.entries := (List.perm_ext_iff_of_nodup
    (.of_map (·.1) d.keys_distinct) (.of_map (·.1) e.keys_distinct)).2 hmem
  rw [← ofList_of_perm hperm, ofList_of_perm (.refl e.entries)]

theorem mem_keys_ofList {k : String} {entries : List (String × α)} :
    k ∈ (ofList entries).entries.map (·.1) ↔ k ∈ entries.map (·.1) := by
  have hfound : Entries.find? k (ofList entries).entries = _ := find?_ofList k entries
  rw [← Entries.isSome_find?, hfound, Entries.isSome_find?, List.map_reverse, List.mem_reverse]

/-- An entry with a new key may as well come last. -/
theorem ofList_insert {k : String} {v : α} {before after : List (String × α)}
    (fresh : k ∉ after.map (·.1)) :
    ofList (before ++ (k, v) :: after) = (ofList (before ++ after)).insert k v := by
  apply ext_find?
  intro k'
  rw [find?_insert, find?_ofList, find?_ofList]
  simp only [List.reverse_append, List.reverse_cons, Entries.find?_append, Entries.find?_cons]
  by_cases hself : k = k'
  · have hnone : Entries.find? k' after.reverse = none := by
      rw [← Option.not_isSome_iff_eq_none, Entries.isSome_find?, List.map_reverse, List.mem_reverse]
      exact hself ▸ fresh
    simp [hself, hnone]
  · simp [hself, Entries.find?]

/-! ## Changing the values -/

@[simp] theorem mapValues_empty {β : Type} (f : α → β) :
    (empty : Dictionary α).mapValues f = empty := rfl

@[simp] theorem mapValues_id (d : Dictionary α) : d.mapValues id = d := by
  apply ext_entries
  simp [mapValues]

end ExchangeClient.Dictionary
