import ExchangeClient.Proofs.Decimal.RoundTrip
import ExchangeClient.Proofs.Dictionary
import ExchangeClient.Proofs.Json.Reordering
import ExchangeClient.TradeApi.Lenient
import ExchangeClient.Trading.Terms

/-!
# What is written is read back

A codec restores values if it reads the document of what it writes, in whatever
order the members of objects stand, up to a change that is known beforehand:
amounts come back as their texts are read, all else as it was. The codecs of
this library are put together from simple ones, and so are the proofs that they
restore values.
-/

namespace ExchangeClient

namespace Decimal

/-- A decimal after it was written and read again. -/
def reread (a : Decimal) : Decimal :=
  match parse a.text with
  | .ok b => b
  | .error _ => .zero

theorem parse_text_reread (a : Decimal) : parse a.text = .ok a.reread := by
  obtain ⟨b, hparse, -⟩ := a.parse_text
  simp [reread, hparse]

/-- What comes back is the rounded number. -/
theorem reread_same_round (a : Decimal) : a.reread.same a.round = true := by
  obtain ⟨b, hparse, hvalue, -⟩ := a.parse_text
  have hread : a.reread = b := by simp [reread, hparse]
  rw [hread, same_iff, hvalue]

theorem text_of_isZero {a : Decimal} (zero : a.isZero = true) : a.text = "0" := by
  have hsame : a.toRat = Decimal.zero.toRat := by
    simp only [isZero, beq_iff_eq] at zero
    simp [toRat_eq, zero, Decimal.zero, signed]
  rw [text_congr hsame]
  rfl

/-- A zero of any scale comes back as the plain one. -/
theorem reread_of_isZero {a : Decimal} (zero : a.isZero = true) : a.reread = .zero := by
  rw [reread, text_of_isZero zero]
  rfl

end Decimal

/-- A whole number of 64 bits is read leniently as what it is. -/
theorem TradeApi.lenientInt_ofInt (key : String) (i : Int64) :
    lenientInt key (.ofInt i.toInt) = .ok i := by
  have hwhole : wholeOfNumber (.int i.toInt) = i.toInt := if_pos i.toInt_lt
  simp only [Json.Value.ofInt, lenientInt, hwhole, Int64.ofInt_toInt]

namespace Json

variable {d : ℕ}

/-- What is written can be read as a value. -/
theorem Value.Fits.ofDocument_toDocument {v : Value} (fits : v.Fits d) :
    ∃ w, Value.ofDocument v.toDocument = .ok w := by
  induction fits with
  | null => exact ⟨_, rfl⟩
  | bool b => exact ⟨_, rfl⟩
  | string s => exact ⟨_, rfl⟩
  | int word => exact ⟨_, rfl⟩
  | @array d items fit ih =>
    have hitems : ∃ ws, Value.ofItems none (Value.toItems items) = .ok ws := by
      clear fit
      induction items with
      | nil => exact ⟨[], rfl⟩
      | cons v items ihItems =>
        obtain ⟨w, hw⟩ := ih v List.mem_cons_self
        obtain ⟨ws, hws⟩ := ihItems fun u hu => ih u (List.mem_cons_of_mem v hu)
        exact ⟨w :: ws, by simp [Value.toItems, Value.ofItems, hw, hws, bind, Except.bind, pure,
          Except.pure]⟩
    obtain ⟨ws, hws⟩ := hitems
    exact ⟨.array ws, by simp [Value.toDocument, Value.ofDocument, hws, Except.map]⟩
  | @object d members fit ih =>
    have hmembers : ∀ held, ∃ ws, Value.ofMembers none held (Value.toMembers members) = .ok ws := by
      clear fit
      induction members with
      | nil => exact fun held => ⟨held, rfl⟩
      | cons m members ihMembers =>
        intro held
        obtain ⟨w, hw⟩ := ih m List.mem_cons_self
        obtain ⟨ws, hws⟩ := ihMembers (fun u hu => ih u (List.mem_cons_of_mem m hu))
          (Entries.insert m.1 w held)
        exact ⟨ws, by simp [Value.toMembers, Value.ofMembers, Key.name, hw, hws, bind,
          Except.bind]⟩
    obtain ⟨ws, hws⟩ := hmembers []
    exact ⟨.object ws, by simp [Value.toDocument, Value.ofDocument, hws, Except.map]⟩

namespace Codec

variable {α β : Type}

/-- Reading a written value, in any order of members, gives what `r` makes of it; written values
are nested at most `d` deep. -/
structure Restores (c : Codec α) (d : ℕ) (r : α → α) : Prop where
  fits : ∀ a, (c.encode a).Fits d
  reads : ∀ a v, (c.encode a).Reordered v → c.decode v.toDocument = .ok (r a)

/-- No value is written as null. -/
def NeverNull (c : Codec α) : Prop := ∀ a, c.encode a ≠ .null

theorem NeverNull.enumeration {names : List (String × α)} {nameOf : α → String} :
    (Codec.enumeration names nameOf).NeverNull := by
  intro a hnull
  cases hnull

theorem NeverNull.record {name : String} {fields : List (RecordField α)} {initial : α} :
    (Codec.record name fields initial).NeverNull := by
  intro a hnull
  cases hnull

namespace Restores

variable {c : Codec α} {e : Codec β} {r : α → α} {s : β → β}

section

variable (restores : c.Restores maxDepth r) {a : α} {v : Value}
  (reordered : (c.encode a).Reordered v)

include restores reordered

theorem readText_text : c.readText v.text = .ok (r a) := by
  rw [c.readText_written ((restores.fits a).reordered reordered), restores.reads a v reordered]

theorem readBytes_text : c.readBytes (Text.utf8 v.text) = .ok (r a) := by
  rw [c.readBytes_written ((restores.fits a).reordered reordered), restores.reads a v reordered]

end

/-! ## Simple values -/

/-- Where there is nothing to reorder, one document is to be read. -/
theorem scalar (alone : ∀ a, (c.encode a).IsScalar) (fits : ∀ a, (c.encode a).Fits d)
    (reads : ∀ a, c.decode (c.encode a).toDocument = .ok (r a)) : c.Restores d r where
  fits := fits
  reads a v reordered := by
    obtain rfl := reordered.eq_of_scalar (alone a)
    exact reads a

theorem bool : Codec.bool.Restores d id := scalar (fun _ => trivial) .bool fun _ => rfl

theorem string : Codec.string.Restores d id := scalar (fun _ => trivial) .string fun _ => rfl

/-- Whole numbers within the bounds that are checked, under any type that stands for them. -/
theorem whole {expected : String} {low high : Int} {ofInt : Int → α} {toInt : α → Int}
    (bounds : ∀ a, low ≤ toInt a ∧ toInt a < high) (words : ∀ a, IsWord (toInt a))
    (inverse : ∀ a, ofInt (toInt a) = a) :
    Restores ⟨fun v => (decodeInt expected low high v).map ofInt, fun a => .ofInt (toInt a)⟩ d
      id := by
  refine scalar (fun _ => trivial) ?_ ?_
  · intro a
    exact .int (words a)
  · intro a
    have hread : decodeInt expected low high (Value.ofInt (toInt a)).toDocument = .ok (toInt a) :=
      if_pos (bounds a)
    simp only [hread, Except.map, inverse, id]

theorem int64 : Codec.int64.Restores d id := by
  apply whole
  · intro i
    exact ⟨i.le_toInt, i.toInt_lt⟩
  · intro i
    have hlow := i.le_toInt
    have hhigh := i.toInt_lt
    exact ⟨by omega, by omega⟩
  · intro i
    exact Int64.ofInt_toInt i

theorem uint64 : Codec.uint64.Restores d id := by
  apply whole
  · intro n
    have hhigh := n.toNat_lt
    omega
  · intro n
    have hhigh := n.toNat_lt
    exact ⟨by omega, by omega⟩
  · intro n
    simp

theorem uint32 : Codec.uint32.Restores d id := by
  apply whole
  · intro n
    have hhigh := n.toNat_lt
    omega
  · intro n
    have hhigh := n.toNat_lt
    exact ⟨by omega, by omega⟩
  · intro n
    simp

theorem decimal : Codec.decimal.Restores d Decimal.reread := by
  refine scalar (fun _ => trivial) ?_ ?_
  · intro a
    exact .string a.text
  · intro a
    have htext : decimalOfText a.text = .ok a.reread := by
      simp [decimalOfText, a.text_ne_empty, a.parse_text_reread]
    simp [Codec.decimal, Value.toDocument, htext, Except.mapError]

theorem enumeration {names : List (String × α)} {nameOf : α → String}
    (named : ∀ a, names.lookup (nameOf a) = some a) :
    (Codec.enumeration names nameOf).Restores d id := by
  refine scalar (fun _ => trivial) ?_ ?_
  · intro a
    exact .string (nameOf a)
  · intro a
    simp [Codec.enumeration, Value.toDocument, decodeVariant, decodeName, named]

theorem side : Side.codec.Restores d id := enumeration fun a => by cases a <;> rfl

theorem method : Method.codec.Restores d id := enumeration fun a => by cases a <;> rfl

theorem sortOrder : SortOrder.codec.Restores d id := enumeration fun a => by cases a <;> rfl

theorem timeInForce : TimeInForce.codec.Restores d id := enumeration fun a => by cases a; rfl

/-- A text that is read leniently is written as a text. -/
theorem lenientText : TradeApi.textCodec.Restores d id :=
  scalar (fun _ => trivial) .string fun _ => rfl

theorem lenientInt : TradeApi.intCodec.Restores d id := by
  refine scalar (fun _ => trivial) (fun i => int64.fits i) ?_
  · intro i
    have hvalue : value.decode (Value.ofInt i.toInt).toDocument = .ok (.ofInt i.toInt) := rfl
    simp only [TradeApi.intCodec, TradeApi.viaValue, hvalue, TradeApi.lenientInt_ofInt, bind,
      Except.bind, Except.mapError, id]

/-! ## Values made from others -/

theorem imap (restores : c.Restores d r) {f : α → β} {g : β → α} :
    (c.imap f g).Restores d fun b => f (r (g b)) where
  fits b := restores.fits (g b)
  reads b v reordered := by
    have hread := restores.reads (g b) v reordered
    simp [Codec.imap, hread, Except.map]

/-- A value that is never written as null may be missing. -/
theorem option (restores : c.Restores d r) (present : c.NeverNull) :
    c.option.Restores d (Option.map r) where
  fits
    | none => .null
    | some a => restores.fits a
  reads
    | none, v, reordered => by
      obtain rfl := reordered.eq_of_scalar trivial
      rfl
    | some a, v, reordered => by
      have hread := restores.reads a v reordered
      have hpresent : v ≠ .null := by
        rintro rfl
        exact present a reordered.eq_null
      cases v with
      | null => exact absurd rfl hpresent
      | _ => exact congrArg (Except.map some) hread

theorem list (restores : c.Restores d r) : (Codec.list c).Restores (d + 1) (List.map r) where
  fits xs := by
    apply Value.Fits.array
    intro v hv
    obtain ⟨a, -, rfl⟩ := List.mem_map.1 hv
    exact restores.fits a
  reads xs v reordered := by
    obtain ⟨items, rfl, heach⟩ := reordered.of_array
    rw [List.forall₂_map_left_iff] at heach
    clear reordered
    have hitems : decodeItems c none (Value.toItems items) = .ok (xs.map r) := by
      induction heach with
      | nil => rfl
      | cons hreordered heach ih =>
        have hread := restores.reads _ _ hreordered
        simp [Value.toItems, decodeItems, hread, ih, bind, Except.bind, pure, Except.pure]
    exact hitems

/-- Members that are related to entries are read as these entries. -/
theorem decodeMembers_related {entries : List (String × α)} {members : List (String × Value)}
    (each : List.Forall₂ (fun e m => e.1 = m.1 ∧ c.decode m.2.toDocument = .ok e.2) entries members)
    (held : Dictionary α) :
    decodeMembers c none held (Value.toMembers members) =
      .ok (entries.foldl (fun m e => m.insert e.1 e.2) held) := by
  induction each generalizing held with
  | nil => rfl
  | @cons e m entries members related each ih =>
    obtain ⟨hname, hread⟩ := related
    simp [Value.toMembers, decodeMembers, Key.name, hname, hread, ih, Except.mapError, bind,
      Except.bind]

theorem dictionary (restores : c.Restores d r) :
    (Codec.dictionary c).Restores (d + 1) (Dictionary.mapValues r) where
  fits m := by
    apply Value.Fits.object
    intro member hmember
    obtain ⟨e, -, rfl⟩ := List.mem_map.1 hmember
    exact restores.fits e.2
  reads m v reordered := by
    obtain ⟨same, members, rfl, hperm, heach⟩ := reordered.of_object
    rw [List.forall₂_map_left_iff] at heach
    have hrelated : List.Forall₂ (fun e m => e.1 = m.1 ∧ c.decode m.2.toDocument = .ok e.2)
        (m.mapValues r).entries same := by
      rw [Dictionary.mapValues, List.forall₂_map_left_iff]
      apply heach.imp
      intro e m' related
      exact ⟨related.1, restores.reads e.2 m'.2 related.2⟩
    obtain ⟨entries, hentries, hmembers⟩ := exists_perm_of_related hrelated hperm
    have hread := decodeMembers_related hmembers .empty
    exact hread.trans (congrArg _ (Dictionary.ofList_of_perm hentries))

theorem pair (first : c.Restores d r) (second : e.Restores d s) :
    (Codec.pair c e).Restores (d + 1) (Prod.map r s) where
  fits x := by
    apply Value.Fits.array
    intro v hv
    rcases List.mem_pair.1 hv with rfl | rfl
    · exact first.fits x.1
    · exact second.fits x.2
  reads x v reordered := by
    obtain ⟨items, rfl, heach⟩ := reordered.of_array
    obtain ⟨v, rest, hv, hrest, rfl⟩ := List.forall₂_cons_left_iff.1 heach
    obtain ⟨w, rest, hw, hnone, rfl⟩ := List.forall₂_cons_left_iff.1 hrest
    obtain rfl := List.forall₂_nil_left_iff.1 hnone
    have hfirst := first.reads x.1 v hv
    have hsecond := second.reads x.2 w hw
    simp [Codec.pair, Value.toDocument, Value.toItems, decodePair, hfirst, hsecond, endFault, bind,
      Except.bind, Prod.map]

end Restores

end Codec
end Json

end ExchangeClient
