import ExchangeClient.Proofs.Json.Members

/-!
# Fields of any document

A record that was read shows of each of its fields what stands for the field in the
document, be it a member of an object or an item of an array, and what the record
had at the start if nothing stands for it. A second member for a field is refused,
so it does not matter which of them counts.
-/

namespace ExchangeClient.Json

/-- What stands for a field of a record: the member of its name, or the item in its place. -/
def fieldAt? (name : String) (index : Nat) : Document → Option Document
  | .object members _ => (members.find? fun m => m.1.name = .ok name).map (·.2)
  | .array items _ => items[index]?
  | _ => none

/-- What stands for a field that has several names. -/
def fieldAmong? (names : List String) (index : Nat) : Document → Option Document
  | .object members _ => (members.find? fun m => names.any fun n => m.1.name = .ok n).map (·.2)
  | .array items _ => items[index]?
  | _ => none

theorem fieldAmong?_singleton (name : String) (index : Nat) (d : Document) :
    fieldAmong? [name] index d = fieldAt? name index d := by
  cases d with
  | object members ending => simp only [fieldAmong?, fieldAt?, List.any_cons, List.any_nil,
      Bool.or_false]
  | leaf | array | deep => rfl

namespace Record

variable {σ β : Type} {fields : List (RecordField σ)} {name : String} {c : Codec β} {look : σ → β}

/-- What stands for the first field of a record, which has a name: a member of this name, or the
first item. -/
inductive Gives (name : String) : Document → Document → Prop where
  | member {members : List (Key × Document)} {ending : Option Fault} {m : Key × Document}
    (mem : m ∈ members) (named : m.1.name = .ok name) : Gives name (.object members ending) m.2
  | first {items : List Document} {ending : Option Fault} {d : Document} :
    Gives name (.array (d :: items) ending) d

theorem gives_of_fieldAt {d x : Document} (found : fieldAt? name 0 d = some x) :
    Gives name d x := by
  cases d with
  | object members ending =>
    obtain ⟨m, hm, rfl⟩ := Option.map_eq_some_iff.1 found
    have hnamed := List.find?_some hm
    exact .member (List.mem_of_find?_eq_some hm) (of_decide_eq_true hnamed)
  | array items ending => cases items with
    | nil => cases found
    | cons d items =>
      cases found
      exact .first
  | leaf | deep => cases found

/-- What a record that was read shows of a field. -/
def Shown (c : Codec β) (look : σ → β) (before after : σ) : Option Document → Prop
  | none => look after = look before
  | some d => c.decode d = .ok (look after)

theorem Shown.of_same {before before' after : σ} {found : Option Document}
    (same : look before' = look before) (shown : Shown c look before' after found) :
    Shown c look before after found := by
  cases found with
  | none => exact Eq.trans shown same
  | some d => exact shown

theorem eq_of_name (distinct : Distinct fields) {f g : RecordField σ} (first : f ∈ fields)
    (second : g ∈ fields) (same : f.name = g.name) : f = g := by
  have hfound := find?_isCalled distinct first
  rw [same, find?_isCalled distinct second] at hfound
  exact (Option.some.inj hfound).symm

/-- A field goes by some names: a member of one of these is read as this field, and no other. -/
def GoesBy (fields : List (RecordField σ)) (name : String) (names : List String) : Prop :=
  ∀ given, (fields.find? (RecordField.isCalled given)).map (·.name) = some name ↔ given ∈ names

theorem Loose.goesBy (loose : Loose fields) (distinct : Distinct fields) {f : RecordField σ}
    (mem : f ∈ fields) : GoesBy fields f.name [f.name] := by
  intro given
  rw [List.mem_singleton]
  constructor
  · intro found
    obtain ⟨g, hg, hsame⟩ := Option.map_eq_some_iff.1 found
    exact (loose.find?_some hg).2.symm.trans hsame
  · rintro rfl
    rw [find?_isCalled distinct mem, Option.map_some]

/-- Reading one member: it is passed over, or it is read as a field that was not seen before. -/
theorem readMembers_step {ending : Option Fault} {seen : List String} {s t : σ}
    {m : Key × Document} {members : List (Key × Document)}
    (read : readMembers fields passOver ending seen s (m :: members) = .ok t) :
    ∃ given, m.1.name = .ok given ∧
      ((fields.find? (RecordField.isCalled given) = none ∧
          readMembers fields passOver ending seen s members = .ok t) ∨
        ∃ f, fields.find? (RecordField.isCalled given) = some f ∧ f.name ∉ seen ∧
          ∃ u, f.read m.2 = .ok u ∧
            readMembers fields passOver ending (f.name :: seen) (u s) members = .ok t) := by
  obtain ⟨k, d⟩ := m
  rw [readMembers] at read
  split at read
  · cases read
  · rename_i given hgiven
    refine ⟨given, hgiven, ?_⟩
    split at read
    · rename_i hnone
      split at read
      · cases read
      · rename_i hpassed
        rw [passOver] at hpassed
        split at hpassed
        · cases hpassed
          exact Or.inl ⟨hnone, read⟩
        · cases hpassed
    · rename_i f hfound
      split at read
      · cases read
      · rename_i hnew
        split at read
        · cases read
        · rename_i u hu
          exact Or.inr ⟨f, hfound, fun hseen => hnew (List.contains_iff_mem.2 hseen), u, hu, read⟩

/-- At the end of the members nothing is changed, and no required field was missing. -/
theorem readMembers_end {ending : Option Fault} {seen : List String} {s t : σ}
    (read : readMembers fields passOver ending seen s [] = .ok t) :
    t = s ∧ missing? fields seen = none := by
  simp only [readMembers] at read
  split at read
  · cases read
  · split at read
    · cases read
    · rename_i hcomplete
      exact ⟨(Except.ok.inj read).symm, hcomplete⟩

/-- A field that was seen is not read again. -/
theorem readMembers_seen (shows : Shows fields name c look) {ending : Option Fault}
    {seen : List String} (hseen : name ∈ seen) {s t : σ} {members : List (Key × Document)}
    (read : readMembers fields passOver ending seen s members = .ok t) : look t = look s := by
  induction members generalizing seen s with
  | nil => exact congrArg look (readMembers_end read).1
  | cons m members ih =>
    obtain ⟨given, -, ⟨-, hrest⟩ | ⟨f, hfound, hnew, u, hu, hrest⟩⟩ := readMembers_step read
    · exact ih hseen hrest
    · have hother : f.name ≠ name := fun same => hnew (same ▸ hseen)
      have hkept := shows.keeps f (List.mem_of_find?_eq_some hfound) hother m.2 u hu s
      exact (ih (List.mem_cons_of_mem _ hseen) hrest).trans hkept

theorem any_eq_ok {m : Key × Document} {given : String} {names : List String}
    (hgiven : m.1.name = .ok given) :
    (names.any fun n => decide (m.1.name = .ok n)) = decide (given ∈ names) := by
  rw [Bool.eq_iff_iff]
  simp [hgiven]

theorem readMembers_among {names : List String} (goes : GoesBy fields name names)
    (distinct : Distinct fields) (shows : Shows fields name c look) {ending : Option Fault}
    {seen : List String} (fresh : name ∉ seen) {s t : σ} {members : List (Key × Document)}
    (read : readMembers fields passOver ending seen s members = .ok t) :
    Shown c look s t (fieldAmong? names 0 (.object members ending)) := by
  induction members generalizing seen s with
  | nil => exact congrArg look (readMembers_end read).1
  | cons m members ih =>
    obtain ⟨field, hfield, hnamed, -, hmeans⟩ := shows.reads
    obtain ⟨given, hgiven, ⟨hnone, hrest⟩ | ⟨f, hfound, hnew, u, hu, hrest⟩⟩ :=
      readMembers_step read
    · have hother : given ∉ names := by
        rw [← goes given, hnone]
        exact nofun
      rw [fieldAmong?, List.find?_cons_of_neg (by simpa [any_eq_ok hgiven] using hother)]
      exact ih fresh hrest
    · by_cases hcalled : f.name = name
      · have hmem : given ∈ names := (goes given).1 (by rw [hfound, Option.map_some, hcalled])
        have hsame := eq_of_name distinct hfield (List.mem_of_find?_eq_some hfound)
          (hnamed.trans hcalled.symm)
        obtain ⟨a, hdecode, hlook⟩ := hmeans m.2 u (hsame ▸ hu)
        have hkept := readMembers_seen shows (List.mem_cons.2 (Or.inl hcalled.symm)) hrest
        rw [fieldAmong?, List.find?_cons_of_pos (by simpa [any_eq_ok hgiven] using hmem),
          Option.map_some, Shown, hkept, hlook, hdecode]
      · have hother : given ∉ names := by
          rw [← goes given, hfound, Option.map_some]
          exact fun same => hcalled (Option.some.inj same)
        rw [fieldAmong?, List.find?_cons_of_neg (by simpa [any_eq_ok hgiven] using hother)]
        refine (ih ?_ hrest).of_same
          (shows.keeps f (List.mem_of_find?_eq_some hfound) hcalled m.2 u hu s)
        exact List.not_mem_cons_of_ne_of_not_mem (Ne.symm hcalled) fresh

/-- Something stands for a required field that was not seen before. -/
theorem readMembers_required {names : List String} (goes : GoesBy fields name names)
    {f : RecordField σ} (mem : f ∈ fields) (named : f.name = name)
    (required : f.presence = .required) {ending : Option Fault} {seen : List String}
    (fresh : name ∉ seen) {s t : σ} {members : List (Key × Document)}
    (read : readMembers fields passOver ending seen s members = .ok t) :
    ∃ d, fieldAmong? names 0 (.object members ending) = some d := by
  induction members generalizing seen s with
  | nil =>
    have hcomplete := (readMembers_end read).2
    rw [missing?, Option.map_eq_none_iff, List.find?_eq_none] at hcomplete
    exact absurd (hcomplete f mem) (by simpa [required, named] using fresh)
  | cons m members ih =>
    obtain ⟨given, hgiven, hstep⟩ := readMembers_step read
    rw [fieldAmong?, List.find?_cons, any_eq_ok hgiven]
    by_cases hmem : given ∈ names
    · rw [decide_eq_true hmem]
      exact ⟨m.2, rfl⟩
    · rw [decide_eq_false hmem]
      rcases hstep with ⟨-, hrest⟩ | ⟨g, hfound, -, u, -, hrest⟩
      · exact ih fresh hrest
      · have hother : name ≠ g.name := by
          rintro rfl
          exact hmem ((goes given).1 (by rw [hfound, Option.map_some]))
        exact ih (List.not_mem_cons_of_ne_of_not_mem hother fresh) hrest

section

variable {expected : String} {ending : Option Fault} {index place : Nat} {s t : σ}
  {field : RecordField σ} {d : Document} {items : List Document}

/-- Without a field there is no item, and nothing is changed. -/
theorem readItems_end (read : readItems expected ending index s [] items = .ok t) :
    items = [] ∧ t = s := by
  cases items with
  | nil =>
    simp only [readItems, Codec.endFault] at read
    split at read
    · exact ⟨rfl, (Except.ok.inj read).symm⟩
    · cases read
  | cons d items => cases read

/-- A field without an item is one that has a default. -/
theorem readItems_missing (read : readItems expected ending index s (field :: fields) [] = .ok t) :
    field.presence = .defaulted ∧ readItems expected ending (index + 1) s fields [] = .ok t := by
  simp only [readItems] at read
  split at read
  · cases read
  · split at read
    · rename_i hdefaulted
      exact ⟨hdefaulted, read⟩
    · cases read

/-- Reading one item. -/
theorem readItems_step
    (read : readItems expected ending index s (field :: fields) (d :: items) = .ok t) :
    ∃ u, field.read d = .ok u ∧
      readItems expected ending (index + 1) (u s) fields items = .ok t := by
  rw [readItems] at read
  split at read
  · cases read
  · rename_i u hu
    exact ⟨u, hu, read⟩

/-- Without items nothing is read. -/
theorem readItems_nil (read : readItems expected ending index s fields [] = .ok t) : t = s := by
  induction fields generalizing index with
  | nil => exact (readItems_end read).2
  | cons f fields ih => exact ih (readItems_missing read).2

theorem readItems_keeps (keeps : ∀ f ∈ fields, f.Keeps look)
    (read : readItems expected ending index s fields items = .ok t) : look t = look s := by
  induction fields generalizing index s items with
  | nil => exact congrArg look (readItems_end read).2
  | cons f fields ih =>
    obtain ⟨hf, hfields⟩ := List.forall_mem_cons.1 keeps
    cases items with
    | nil => exact ih hfields (readItems_missing read).2
    | cons d items =>
      obtain ⟨u, hu, hrest⟩ := readItems_step read
      exact (ih hfields hrest).trans (hf d u hu s)

theorem readItems_fieldAt (at_ : fields[place]? = some field)
    (means : ∀ d u, field.read d = .ok u → ∃ a, c.decode d = .ok a ∧ ∀ t, look (u t) = a)
    (others : ∀ i f, fields[i]? = some f → i ≠ place → f.Keeps look)
    (read : readItems expected ending index s fields items = .ok t) :
    Shown c look s t items[place]? := by
  induction fields generalizing index place s items with
  | nil => cases at_
  | cons f fields ih =>
    cases items with
    | nil => exact congrArg look (readItems_nil read)
    | cons d items =>
      obtain ⟨u, hu, hrest⟩ := readItems_step read
      cases place with
      | zero =>
        obtain rfl := Option.some.inj at_
        obtain ⟨a, hdecode, hlook⟩ := means d u hu
        have hothers : ∀ f ∈ fields, f.Keeps look := by
          intro f hf
          obtain ⟨i, hi⟩ := List.mem_iff_getElem?.1 hf
          exact others (i + 1) f hi (Nat.succ_ne_zero i)
        rw [List.getElem?_cons_zero, Shown, readItems_keeps hothers hrest, hlook, hdecode]
      | succ place =>
        have hfirst : f.Keeps look := others 0 f rfl (Nat.succ_ne_zero place).symm
        rw [List.getElem?_cons_succ]
        refine (ih (by simpa using at_) ?_ hrest).of_same (hfirst d u hu s)
        intro i g hg hother
        exact others (i + 1) g hg fun same => hother (Nat.succ.inj same)

/-- An item stands in the place of a required field. -/
theorem readItems_required (at_ : fields[place]? = some field)
    (required : field.presence = .required)
    (read : readItems expected ending index s fields items = .ok t) :
    ∃ d, items[place]? = some d := by
  induction fields generalizing index place s items with
  | nil => cases at_
  | cons f fields ih =>
    cases items with
    | nil =>
      obtain ⟨hdefaulted, hrest⟩ := readItems_missing read
      cases place with
      | zero =>
        obtain rfl := Option.some.inj at_
        cases required.symm.trans hdefaulted
      | succ place =>
        obtain ⟨d, hd⟩ := ih (by simpa using at_) hrest
        cases hd
    | cons d items =>
      obtain ⟨u, -, hrest⟩ := readItems_step read
      cases place with
      | zero => exact ⟨d, rfl⟩
      | succ place =>
        rw [List.getElem?_cons_succ]
        exact ih (by simpa using at_) hrest

end

theorem eq_of_place (distinct : Distinct fields) {f g : RecordField σ} {i place : ℕ}
    (first : fields[i]? = some f) (second : fields[place]? = some g) (same : f.name = g.name) :
    i = place := by
  have hnames : (fields.map (·.name))[i]? = (fields.map (·.name))[place]? := by
    rw [List.getElem?_map, List.getElem?_map, first, second, Option.map_some, Option.map_some, same]
  have hbound : i < (fields.map (·.name)).length := by
    rw [List.length_map]
    exact (List.getElem?_eq_some_iff.1 first).1
  exact (List.getElem?_inj hbound (names_nodup distinct)).1 hnames

/-- A record shows of a field what stands for the field, under whichever of its names, in the
document it was read from. -/
theorem decode_among {names : List String} (goes : GoesBy fields name names)
    (distinct : Distinct fields) (shows : Shows fields name c look) (place : Nat)
    (placed : fields[place]?.map (·.name) = some name) {record : String} {initial t : σ}
    {d : Document} (read : decode record fields initial d = .ok t) :
    Shown c look initial t (fieldAmong? names place d) := by
  rw [decode.eq_def] at read
  split at read
  · exact readMembers_among goes distinct shows List.not_mem_nil read
  · obtain ⟨field, hat, hnamed⟩ := Option.map_eq_some_iff.1 placed
    obtain ⟨f, hf, hcalled, -, hmeans⟩ := shows.reads
    have hsame := eq_of_name distinct hf (List.mem_of_getElem? hat) (hcalled.trans hnamed.symm)
    refine readItems_fieldAt hat (hsame ▸ hmeans) ?_ read
    intro i g hg hother
    refine shows.keeps g (List.mem_of_getElem? hg) fun hname => hother ?_
    exact eq_of_place distinct hg hat (hname.trans hnamed.symm)
  · cases read
  · cases read
  · cases read

/-- Something stands for a required field in whatever a record was read from. -/
theorem decode_required {names : List String} {f : RecordField σ} {place : ℕ}
    (goes : GoesBy fields f.name names) (at_ : fields[place]? = some f)
    (required : f.presence = .required) {record : String} {initial t : σ} {d : Document}
    (read : decode record fields initial d = .ok t) : ∃ x, fieldAmong? names place d = some x := by
  rw [decode.eq_def] at read
  split at read
  · exact readMembers_required goes (List.mem_of_getElem? at_) rfl required List.not_mem_nil read
  · exact readItems_required at_ required read
  · cases read
  · cases read
  · cases read

/-- A record shows of a field what stands for the field in the document it was read from. -/
theorem decode_fieldAt (loose : Loose fields) (distinct : Distinct fields)
    (shows : Shows fields name c look) (place : Nat)
    (placed : fields[place]?.map (·.name) = some name) {record : String} {initial t : σ}
    {d : Document} (read : decode record fields initial d = .ok t) :
    Shown c look initial t (fieldAt? name place d) := by
  obtain ⟨f, hf, rfl, -⟩ := shows.reads
  rw [← fieldAmong?_singleton]
  exact decode_among (loose.goesBy distinct hf) distinct shows place placed read

/-- A record shows of its first field what it had at the start, or what the document says. -/
theorem decode_shown {first : RecordField σ} {rest : List (RecordField σ)}
    (loose : Loose (first :: rest)) (distinct : Distinct (first :: rest))
    (shows : Shows (first :: rest) first.name c look) {record : String} {initial t : σ}
    {d : Document} (read : decode record (first :: rest) initial d = .ok t) :
    look t = look initial ∨ ∃ x, Gives first.name d x ∧ c.decode x = .ok (look t) := by
  have hshown := decode_fieldAt loose distinct shows 0 rfl read
  cases hfound : fieldAt? first.name 0 d with
  | none =>
    rw [hfound] at hshown
    exact Or.inl hshown
  | some x =>
    rw [hfound] at hshown
    exact Or.inr ⟨x, gives_of_fieldAt hfound, hshown⟩

end Record
end ExchangeClient.Json
