/-!
# Dictionaries

Finite maps from texts, held as rows of entries with strictly ascending keys, so
that equal maps are equal rows. A later value for a key replaces the earlier
one.
-/

namespace ExchangeClient

namespace Entries

variable {α : Type}

/-- Puts an entry in its place, or in the place of the entry with its key. -/
def insert (k : String) (v : α) : List (String × α) → List (String × α)
  | [] => [(k, v)]
  | e :: rest =>
    if k < e.1 then (k, v) :: e :: rest
    else if e.1 < k then e :: insert k v rest
    else (k, v) :: rest

def find? (k : String) (entries : List (String × α)) : Option α :=
  (entries.find? fun e => e.1 == k).map (·.2)

theorem mem_insert {k : String} {v : α} {entries : List (String × α)} {e : String × α}
    (h : e ∈ insert k v entries) : e = (k, v) ∨ e ∈ entries := by
  induction entries with
  | nil => simpa [insert] using h
  | cons a rest ih =>
    unfold insert at h
    split at h
    · simpa using h
    · split at h
      · rcases List.mem_cons.1 h with h | h
        · simp [h]
        · rcases ih h with h | h <;> simp [h]
      · rcases List.mem_cons.1 h with h | h <;> simp [h]

theorem pairwise_insert {k : String} {v : α} {entries : List (String × α)}
    (h : entries.Pairwise fun a b => a.1 < b.1) :
    (insert k v entries).Pairwise fun a b => a.1 < b.1 := by
  induction entries with
  | nil => simp [insert]
  | cons a rest ih =>
    obtain ⟨ha, hrest⟩ := List.pairwise_cons.1 h
    unfold insert
    split
    · rename_i hk
      refine List.pairwise_cons.2 ⟨?_, h⟩
      intro b hb
      rcases List.mem_cons.1 hb with rfl | hb
      · exact hk
      · exact String.lt_trans hk (ha b hb)
    · rename_i hk
      split
      · rename_i hk'
        refine List.pairwise_cons.2 ⟨?_, ih hrest⟩
        intro b hb
        rcases mem_insert hb with rfl | hb
        · exact hk'
        · exact ha b hb
      · rename_i hk'
        have hkey : k = a.1 := String.le_antisymm (String.not_lt.1 hk') (String.not_lt.1 hk)
        refine List.pairwise_cons.2 ⟨?_, hrest⟩
        intro b hb
        rw [hkey]
        exact ha b hb

end Entries

structure Dictionary (α : Type) where
  entries : List (String × α)
  ascending : entries.Pairwise fun a b => a.1 < b.1

namespace Dictionary

variable {α β : Type}

def empty : Dictionary α := ⟨[], .nil⟩

instance : Inhabited (Dictionary α) := ⟨empty⟩

theorem ext_entries {d e : Dictionary α} (h : d.entries = e.entries) : d = e := by
  cases d; cases e; cases h; rfl

instance [DecidableEq α] : DecidableEq (Dictionary α) := fun d e =>
  if h : d.entries = e.entries then isTrue (ext_entries h) else isFalse fun he => h (he ▸ rfl)

def insert (d : Dictionary α) (k : String) (v : α) : Dictionary α :=
  ⟨Entries.insert k v d.entries, Entries.pairwise_insert d.ascending⟩

def find? (d : Dictionary α) (k : String) : Option α := Entries.find? k d.entries

def ofList (entries : List (String × α)) : Dictionary α :=
  entries.foldl (fun d e => d.insert e.1 e.2) empty

def isEmpty (d : Dictionary α) : Bool := d.entries.isEmpty

def keys (d : Dictionary α) : List String := d.entries.map (·.1)

/-- Changes the values and keeps the keys. -/
def mapValues (f : α → β) (d : Dictionary α) : Dictionary β :=
  ⟨d.entries.map fun e => (e.1, f e.2), by
    rw [List.pairwise_map]; exact d.ascending⟩

end Dictionary
end ExchangeClient
