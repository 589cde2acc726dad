import ExchangeClient.Proofs.Dictionary
import ExchangeClient.Proofs.Results
import ExchangeClient.TradeApi.Lenient
import Mathlib.Data.List.Forall2

/-!
# Reading by way of a value

A document can be read as a plain value first and the value as something else
afterwards. The value of a document is read as itself again, since its objects are
in order already and have no name twice. So what looks at values anyway reads the
same either way.
-/

namespace ExchangeClient.Json

theorem forall₂_trans {α β γ : Type} {R : α → β → Prop} {S : β → γ → Prop} {T : α → γ → Prop}
    (step : ∀ x y z, R x y → S y z → T x z) {xs : List α} {ys : List β} {zs : List γ}
    (first : List.Forall₂ R xs ys) (second : List.Forall₂ S ys zs) : List.Forall₂ T xs zs := by
  induction first generalizing zs with
  | nil =>
    obtain rfl := List.forall₂_nil_left_iff.1 second
    exact .nil
  | cons related first ih =>
    obtain ⟨z, rest, hz, hrest, rfl⟩ := List.forall₂_cons_left_iff.1 second
    exact .cons (step _ _ _ related hz) (ih hrest)

namespace Value

theorem toItems_eq (vs : List Value) : toItems vs = vs.map toDocument := by
  induction vs with
  | nil => rfl
  | cons v vs ih => rw [toItems, ih, List.map_cons]

theorem toMembers_eq (ms : List (String × Value)) :
    toMembers ms = ms.map fun m => (.quoted (.string m.1), m.2.toDocument) := by
  induction ms with
  | nil => rfl
  | cons m ms ih => rw [toMembers, ih, List.map_cons]

/-- Items are read one by one. -/
theorem ofItems_eq_ok_iff {ending : Option Fault} {ds : List Document} {vs : List Value} :
    ofItems ending ds = .ok vs ↔
      ending = none ∧ List.Forall₂ (fun d v => ofDocument d = .ok v) ds vs := by
  induction ds generalizing vs with
  | nil =>
    rw [List.forall₂_nil_left_iff]
    cases ending with
    | none => exact ⟨fun h => ⟨rfl, (Except.ok.inj h).symm⟩, fun h => congrArg _ h.2.symm⟩
    | some f => exact ⟨nofun, nofun⟩
  | cons d ds ih =>
    rw [ofItems, Except.bind_eq_ok, List.forall₂_cons_left_iff]
    constructor
    · rintro ⟨v, hv, hrest⟩
      obtain ⟨vs', hvs, hpure⟩ := Except.bind_eq_ok.1 hrest
      obtain ⟨hending, heach⟩ := ih.1 hvs
      exact ⟨hending, v, vs', hv, heach, (Except.ok.inj hpure).symm⟩
    · rintro ⟨hending, v, vs', hv, heach, rfl⟩
      exact ⟨v, hv, Except.bind_eq_ok.2 ⟨vs', ih.2 ⟨hending, heach⟩, rfl⟩⟩

/-- Members are read one by one and put in order. -/
theorem ofMembers_eq_ok_iff {ending : Option Fault} (held : Dictionary Value)
    {members : List (Key × Document)} {ms : List (String × Value)} :
    ofMembers ending held.entries members = .ok ms ↔
      ending = none ∧ ∃ entries : List (String × Value),
        List.Forall₂ (fun m e => m.1.name = .ok e.1 ∧ ofDocument m.2 = .ok e.2) members entries ∧
          ms = (entries.foldl (fun m e => m.insert e.1 e.2) held).entries := by
  induction members generalizing held with
  | nil =>
    cases ending with
    | none =>
      constructor
      · intro h
        exact ⟨rfl, [], .nil, (Except.ok.inj h).symm⟩
      · rintro ⟨-, entries, hnone, rfl⟩
        obtain rfl := List.forall₂_nil_left_iff.1 hnone
        rfl
    | some f => exact ⟨nofun, fun h => nomatch h.1⟩
  | cons m members ih =>
    obtain ⟨k, d⟩ := m
    rw [ofMembers, Except.bind_eq_ok]
    constructor
    · rintro ⟨name, hname, hrest⟩
      obtain ⟨v, hv, hrest⟩ := Except.bind_eq_ok.1 hrest
      obtain ⟨hending, entries, heach, rfl⟩ := (ih (held.insert name v)).1 hrest
      exact ⟨hending, (name, v) :: entries, .cons ⟨hname, hv⟩ heach, rfl⟩
    · rintro ⟨hending, entries, heach, rfl⟩
      obtain ⟨e, rest, ⟨hname, hv⟩, hrest, rfl⟩ := List.forall₂_cons_left_iff.1 heach
      exact ⟨e.1, hname, Except.bind_eq_ok.2 ⟨e.2, hv,
        (ih (held.insert e.1 e.2)).2 ⟨hending, rest, hrest, rfl⟩⟩⟩

/-! ## What a value is read from -/

variable {d : Document}

theorem leaf_of_null (read : ofDocument d = .ok .null) : d = .leaf .null := by
  cases d with
  | leaf l => cases l with
    | null => rfl
    | bool | number | string | broken => cases read
  | array items ending =>
    obtain ⟨vs, -, hsame⟩ := Except.map_eq_ok.1 read
    cases hsame
  | object members ending =>
    obtain ⟨ms, -, hsame⟩ := Except.map_eq_ok.1 read
    cases hsame
  | deep d => cases read

theorem array_of_array {vs : List Value} (read : ofDocument d = .ok (.array vs)) :
    ∃ items, d = .array items none ∧ List.Forall₂ (fun d v => ofDocument d = .ok v) items vs := by
  cases d with
  | leaf l => cases l <;> cases read
  | array items ending =>
    obtain ⟨vs', hitems, hsame⟩ := Except.map_eq_ok.1 read
    cases hsame
    obtain ⟨rfl, heach⟩ := ofItems_eq_ok_iff.1 hitems
    exact ⟨items, rfl, heach⟩
  | object members ending =>
    obtain ⟨ms, -, hsame⟩ := Except.map_eq_ok.1 read
    cases hsame
  | deep d => cases read

theorem object_of_object {ms : List (String × Value)} (read : ofDocument d = .ok (.object ms)) :
    ∃ (members : List (Key × Document)) (entries : List (String × Value)),
      d = .object members none ∧
      List.Forall₂ (fun m e => m.1.name = .ok e.1 ∧ ofDocument m.2 = .ok e.2) members entries ∧
        ms = (Dictionary.ofList entries).entries := by
  cases d with
  | leaf l => cases l <;> cases read
  | array items ending =>
    obtain ⟨vs, -, hsame⟩ := Except.map_eq_ok.1 read
    cases hsame
  | object members ending =>
    obtain ⟨ms', hmembers, hsame⟩ := Except.map_eq_ok.1 read
    cases hsame
    obtain ⟨rfl, entries, heach, rfl⟩ := (ofMembers_eq_ok_iff .empty).1 hmembers
    exact ⟨members, entries, rfl, heach, rfl⟩
  | deep d => cases read

/-- An object is read from any members that are read one by one. -/
theorem ofDocument_object {members : List (Key × Document)} {rows : List (String × Value)}
    (each : List.Forall₂ (fun m e => m.1.name = .ok e.1 ∧ ofDocument m.2 = .ok e.2) members rows) :
    ofDocument (.object members none) = .ok (.object (Dictionary.ofList rows).entries) :=
  Except.map_eq_ok.2 ⟨_, (ofMembers_eq_ok_iff .empty).2 ⟨rfl, rows, each, rfl⟩, rfl⟩

/-- The names of the members are those of the rows they are read as. -/
theorem mem_names_iff {members : List (Key × Document)} {rows : List (String × Value)}
    (each : List.Forall₂ (fun m e => m.1.name = .ok e.1 ∧ ofDocument m.2 = .ok e.2) members rows)
    {name : String} : name ∈ rows.map (·.1) ↔ ∃ m ∈ members, m.1.name = .ok name := by
  induction each with
  | nil => exact iff_of_false List.not_mem_nil (by simp)
  | @cons m e members rows related each ih =>
    simp only [List.map_cons, List.mem_cons, exists_eq_or_imp, ih, related.1]
    exact or_congr ⟨fun h => congrArg Except.ok h.symm, fun h => (Except.ok.inj h).symm⟩ Iff.rfl

/-! ## Values that are read as themselves -/

def Kept (v : Value) : Prop := ofDocument v.toDocument = .ok v

theorem Kept.array {vs : List Value} (each : ∀ v ∈ vs, v.Kept) : (Value.array vs).Kept := by
  have hitems : ofItems none (toItems vs) = .ok vs := by
    rw [ofItems_eq_ok_iff, toItems_eq, List.forall₂_map_left_iff]
    exact ⟨rfl, List.forall₂_same.2 each⟩
  exact Except.map_eq_ok.2 ⟨vs, hitems, rfl⟩

theorem Kept.object {m : Dictionary Value} (each : ∀ e ∈ m.entries, e.2.Kept) :
    (Value.object m.entries).Kept := by
  have hmembers : ofMembers none [] (toMembers m.entries) = .ok m.entries := by
    refine (ofMembers_eq_ok_iff .empty).2 ⟨rfl, m.entries, ?_, ?_⟩
    · rw [toMembers_eq, List.forall₂_map_left_iff]
      exact List.forall₂_same.2 fun e he => ⟨rfl, each e he⟩
    · exact congrArg Dictionary.entries (Dictionary.ofList_of_perm (.refl m.entries)).symm
  exact Except.map_eq_ok.2 ⟨m.entries, hmembers, rfl⟩

mutual

/-- The value of a document is read as itself. -/
theorem kept_of_document : (d : Document) → {v : Value} → ofDocument d = .ok v → v.Kept
  | .leaf l, v, read => by
    cases l with
    | broken => cases read
    | null | bool | number | string =>
      cases read
      rfl
  | .array items ending, v, read => by
    obtain ⟨vs, hitems, rfl⟩ := Except.map_eq_ok.1 read
    exact .array (kept_of_items items hitems)
  | .object members ending, v, read => by
    obtain ⟨ms, hmembers, rfl⟩ := Except.map_eq_ok.1 read
    have hkept := kept_of_members members hmembers nofun
    obtain ⟨-, entries, -, rfl⟩ := (ofMembers_eq_ok_iff .empty).1 hmembers
    exact .object hkept
  | .deep _, _, read => nomatch read

theorem kept_of_items : (ds : List Document) → {ending : Option Fault} → {vs : List Value} →
    ofItems ending ds = .ok vs → ∀ v ∈ vs, v.Kept
  | [], _, vs, read => by
    obtain ⟨-, heach⟩ := ofItems_eq_ok_iff.1 read
    obtain rfl := List.forall₂_nil_left_iff.1 heach
    exact nofun
  | d :: ds, ending, vs, read => by
    obtain ⟨v, hv, hrest⟩ := Except.bind_eq_ok.1 read
    obtain ⟨vs', hvs, hpure⟩ := Except.bind_eq_ok.1 hrest
    obtain rfl := Except.ok.inj hpure
    exact List.forall_mem_cons.2 ⟨kept_of_document d hv, kept_of_items ds hvs⟩

theorem kept_of_members : (members : List (Key × Document)) → {ending : Option Fault} →
    {held ms : List (String × Value)} → ofMembers ending held members = .ok ms →
      (∀ e ∈ held, e.2.Kept) → ∀ e ∈ ms, e.2.Kept
  | [], ending, held, ms, read, kept => by
    cases ending with
    | none => exact Except.ok.inj read ▸ kept
    | some f => cases read
  | (k, d) :: members, ending, held, ms, read, kept => by
    obtain ⟨name, -, hrest⟩ := Except.bind_eq_ok.1 read
    obtain ⟨v, hv, hrest⟩ := Except.bind_eq_ok.1 hrest
    refine kept_of_members members hrest ?_
    intro e he
    rcases Entries.mem_insert he with rfl | hbefore
    · exact kept_of_document d hv
    · exact kept e hbefore

end
end Value

/-! ## Codecs -/

namespace Codec

variable {α : Type} {c : Codec α}

theorem decodeItems_eq_ok_iff {ending : Option Fault} {ds : List Document} {xs : List α} :
    decodeItems c ending ds = .ok xs ↔
      ending = none ∧ List.Forall₂ (fun d x => c.decode d = .ok x) ds xs := by
  induction ds generalizing xs with
  | nil =>
    rw [decodeItems, List.forall₂_nil_left_iff]
    cases ending with
    | none => exact ⟨fun h => ⟨rfl, (Except.ok.inj h).symm⟩, fun h => congrArg _ h.2.symm⟩
    | some f => exact ⟨nofun, nofun⟩
  | cons d ds ih =>
    rw [decodeItems, Except.bind_eq_ok, List.forall₂_cons_left_iff]
    constructor
    · rintro ⟨x, hx, hrest⟩
      obtain ⟨xs', hxs, hpure⟩ := Except.bind_eq_ok.1 hrest
      obtain ⟨hending, heach⟩ := ih.1 hxs
      exact ⟨hending, x, xs', hx, heach, (Except.ok.inj hpure).symm⟩
    · rintro ⟨hending, x, xs', hx, heach, rfl⟩
      exact ⟨x, hx, Except.bind_eq_ok.2 ⟨xs', ih.2 ⟨hending, heach⟩, rfl⟩⟩

/-- The members of an object are read one by one. -/
theorem entries_of_members {ending : Option Fault} {held m : Dictionary α}
    {members : List (Key × Document)} (read : decodeMembers c ending held members = .ok m) :
    ending = none ∧ ∃ entries : List (String × α),
      List.Forall₂ (fun m e => m.1.name = .ok e.1 ∧ c.decode m.2 = .ok e.2) members entries ∧
        m = entries.foldl (fun m e => m.insert e.1 e.2) held := by
  induction members generalizing held with
  | nil =>
    cases ending with
    | none => exact ⟨rfl, [], .nil, (Except.ok.inj read).symm⟩
    | some f => cases read
  | cons e members ih =>
    obtain ⟨name, hname, hrest⟩ := Except.bind_eq_ok.1 read
    obtain ⟨x, hx, hrest⟩ := Except.bind_eq_ok.1 hrest
    obtain ⟨hending, entries, heach, rfl⟩ := ih hrest
    exact ⟨hending, (name, x) :: entries, .cons ⟨Except.mapError_eq_ok.1 hname, hx⟩ heach, rfl⟩

/-- The members of a written object are read one by one. -/
theorem entries_of_decodeMembers {held m : Dictionary α} {ms : List (String × Value)}
    (read : decodeMembers c none held (Value.toMembers ms) = .ok m) :
    ∃ entries : List (String × α),
      List.Forall₂ (fun e x => e.1 = x.1 ∧ c.decode e.2.toDocument = .ok x.2) ms entries ∧
        m = entries.foldl (fun m e => m.insert e.1 e.2) held := by
  obtain ⟨-, entries, heach, hm⟩ := entries_of_members read
  rw [Value.toMembers_eq, List.forall₂_map_left_iff] at heach
  exact ⟨entries, heach.imp fun e x related => ⟨Except.ok.inj related.1, related.2⟩, hm⟩

theorem decode_of_option {d : Document} {a : α} (read : (option c).decode d = .ok (some a)) :
    c.decode d = .ok a := by
  simp only [option] at read
  split at read
  · cases read
  · cases read
  · obtain ⟨b, hb, hsome⟩ := Except.map_eq_ok.1 read
    exact hb.trans (congrArg _ (Option.some.inj hsome))

/-- What is read from the value of a document is read from the document too. -/
def ThroughValue (c : Codec α) : Prop :=
  ∀ ⦃d v a⦄, Value.ofDocument d = .ok v → c.decode v.toDocument = .ok a → c.decode d = .ok a

theorem ThroughValue.list (through : c.ThroughValue) : (Codec.list c).ThroughValue := by
  intro d v xs hd hv
  cases v with
  | array vs =>
    obtain ⟨items, rfl, hitems⟩ := Value.array_of_array hd
    obtain ⟨-, heach⟩ := decodeItems_eq_ok_iff.1 hv
    rw [Value.toItems_eq, List.forall₂_map_left_iff] at heach
    exact decodeItems_eq_ok_iff.2
      ⟨rfl, forall₂_trans (fun d v x => @through d v x) hitems heach⟩
  | null | bool | number | string | object => cases hv

theorem ThroughValue.object {σ : Type}
    {take : σ → String → Value → Except ContentError σ} {initial : σ} {encode : σ → Value} :
    (TradeApi.objectCodec take initial encode).ThroughValue := by
  intro d v a hd hv
  cases v with
  | object ms =>
    have hkept : (Value.object ms).Kept := Value.kept_of_document d hd
    obtain ⟨members, -, rfl, -, -⟩ := Value.object_of_object hd
    obtain ⟨w, hw, hfold⟩ := Except.bind_eq_ok.1 hv
    obtain rfl := Except.ok.inj ((Except.mapError_eq_ok.1 hw).symm.trans hkept)
    exact Except.bind_eq_ok.2 ⟨_, Except.mapError_eq_ok.2 hd, hfold⟩
  | null | bool | number | string | array => cases hv

end Codec
end ExchangeClient.Json
