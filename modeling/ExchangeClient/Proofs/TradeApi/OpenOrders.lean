import ExchangeClient.Proofs.Json.Fields
import ExchangeClient.Proofs.Json.Values
import ExchangeClient.Proofs.TradeApi.Rejections

/-!
# Open orders by pair

The orders of one pair come as a list and those of all pairs as a map, and the
exchange may leave out what is empty. A map is told to the caller with its own
names. A list is filed under the pair that was asked for, also where none was and
the list stands for no map at all: then the orders of an unnamed pair are told.
-/

namespace ExchangeClient

theorem rel_find? {α β γ δ : Type} {R : γ → δ → Prop} {p : α → Bool} {q : β → Bool} {f : α → γ}
    {g : β → δ} {xs : List α} {ys : List β}
    (each : List.Forall₂ (fun x y => p x = q y ∧ R (f x) (g y)) xs ys) :
    Option.Rel R ((xs.find? p).map f) ((ys.find? q).map g) := by
  induction each with
  | nil => exact .none
  | @cons x y xs ys related each ih =>
    obtain ⟨hsame, hrelated⟩ := related
    rw [List.find?_cons, List.find?_cons, hsame]
    cases q y with
    | true => exact .some hrelated
    | false => exact ih

theorem rel_trans {α β γ : Type} {R : α → β → Prop} {S : β → γ → Prop} {T : α → γ → Prop}
    (step : ∀ x y z, R x y → S y z → T x z) {x : Option α} {y : Option β} {z : Option γ}
    (first : Option.Rel R x y) (second : Option.Rel S y z) : Option.Rel T x z := by
  cases first with
  | none =>
    cases second
    exact .none
  | some hfirst =>
    cases second with
    | some hsecond => exact .some (step _ _ _ hfirst hsecond)

theorem isSome_eq_of_rel {α β : Type} {R : α → β → Prop} {x : Option α} {y : Option β}
    (related : Option.Rel R x y) : x.isSome = y.isSome := by
  cases related with
  | none => rfl
  | some => rfl

namespace TradeApi

open Json

/-- What stands under a name in an object, of which the last counts. -/
def lastMember? (name : String) (members : List (Key × Document)) : Option Document :=
  (members.reverse.find? fun m => m.1.name = .ok name).map (·.2)

/-- What orders a reply tells, by what stands for them in it, to whoever asked for a pair. -/
inductive OrdersTold (pair : String) : Option Document → OpenOrders → Prop where
  | missing : OrdersTold pair none .empty
  | null : OrdersTold pair (some (.leaf .null)) .empty
  | list {items : List Document} {orders : List Order}
    (each : List.Forall₂ (fun d o => Order.codec.decode d = .ok o) items orders) :
    OrdersTold pair (some (.array items none)) (.ofList [(pair, orders)])
  | map {members : List (Key × Document)} {orders : OpenOrders}
    (named : ∀ m ∈ members, ∃ name, m.1.name = .ok name)
    (each : ∀ name, Option.Rel (fun d found => (Codec.list Order.codec).decode d = .ok found)
      (lastMember? name members) (orders.find? name)) :
    OrdersTold pair (some (.object members none)) orders

/-- A name of the map that stands for the orders. -/
def Names (told : Option Document) (name : String) : Prop :=
  ∃ members ending, told = some (.object members ending) ∧ ∃ m ∈ members, m.1.name = .ok name

def IsList (told : Option Document) : Prop := ∃ items ending, told = some (.array items ending)

/-! ## What is told -/

section

variable {pair : String} {told : Option Document} {orders : OpenOrders}

theorem lastMember?_isSome_iff {name : String} {members : List (Key × Document)} :
    (lastMember? name members).isSome = true ↔ ∃ m ∈ members, m.1.name = .ok name := by
  rw [lastMember?, Option.isSome_map, List.find?_isSome]
  simp only [List.mem_reverse, decide_eq_true_eq]

theorem OrdersTold.find?_isSome_iff (tells : OrdersTold pair told orders) (name : String) :
    (orders.find? name).isSome = true ↔ Names told name ∨ name = pair ∧ IsList told := by
  cases tells with
  | missing =>
    refine ⟨nofun, ?_⟩
    rintro (⟨_, _, hobject, -⟩ | ⟨-, _, _, hlist⟩)
    · cases hobject
    · cases hlist
  | null =>
    refine ⟨nofun, ?_⟩
    rintro (⟨_, _, hobject, -⟩ | ⟨-, _, _, hlist⟩)
    · cases hobject
    · cases hlist
  | @list items found each =>
    have hfind : (Dictionary.ofList [(pair, found)]).find? name =
        if pair = name then some found else none := by
      rw [Dictionary.find?_ofList, List.reverse_singleton, Entries.find?_cons]
      rfl
    rw [hfind]
    constructor
    · intro hsome
      split at hsome
      · rename_i hname
        exact Or.inr ⟨hname.symm, items, none, rfl⟩
      · cases hsome
    · rintro (⟨_, _, hobject, -⟩ | ⟨rfl, -⟩)
      · cases hobject
      · rw [if_pos rfl]
        rfl
  | @map members _ named each =>
    rw [← isSome_eq_of_rel (each name), lastMember?_isSome_iff]
    constructor
    · exact fun hmem => Or.inl ⟨members, none, rfl, hmem⟩
    · rintro (⟨_, _, hobject, hmem⟩ | ⟨-, _, _, hlist⟩)
      · cases hobject
        exact hmem
      · cases hlist

theorem OrdersTold.eq_empty_iff (tells : OrdersTold pair told orders) :
    orders = .empty ↔ told = none ∨ told = some (.leaf .null) ∨ told = some (.object [] none) := by
  have hfound := tells.find?_isSome_iff
  rw [Dictionary.eq_empty_iff]
  cases tells with
  | missing => exact iff_of_true (fun _ => rfl) (Or.inl rfl)
  | null => exact iff_of_true (fun _ => rfl) (Or.inr (Or.inl rfl))
  | @list items found each =>
    have hpair := (hfound pair).2 (Or.inr ⟨rfl, items, none, rfl⟩)
    refine iff_of_false (fun hnone => ?_) ?_
    · exact absurd hpair (Bool.eq_false_iff.1 (hnone pair))
    · rintro (htold | htold | htold) <;> cases htold
  | @map members _ named each =>
    cases members with
    | nil =>
      refine iff_of_true (fun name => ?_) (Or.inr (Or.inr rfl))
      rw [← isSome_eq_of_rel (each name)]
      rfl
    | cons m members =>
      obtain ⟨name, hname⟩ := named m List.mem_cons_self
      have hfirst := (hfound name).2
        (Or.inl ⟨m :: members, none, rfl, m, List.mem_cons_self, hname⟩)
      refine iff_of_false (fun hnone => ?_) ?_
      · exact absurd hfirst (Bool.eq_false_iff.1 (hnone name))
      · rintro (htold | htold | htold) <;> cases htold

/-- Only where no pair was asked for and a list comes is there something under a name that nobody
gave. -/
theorem OrdersTold.unnamed_iff (tells : OrdersTold pair told orders) :
    (∃ name, (orders.find? name).isSome = true ∧ ¬Names told name ∧ ¬(name = pair ∧ pair ≠ "")) ↔
      pair = "" ∧ IsList told := by
  constructor
  · rintro ⟨name, hfound, hother, hunasked⟩
    obtain ⟨rfl, hlist⟩ := ((tells.find?_isSome_iff name).1 hfound).resolve_left hother
    exact ⟨not_not.1 fun hpresent => hunasked ⟨rfl, hpresent⟩, hlist⟩
  · rintro ⟨rfl, hlist⟩
    refine ⟨"", (tells.find?_isSome_iff "").2 (Or.inr ⟨rfl, hlist⟩), ?_, fun h => h.2 rfl⟩
    rintro ⟨_, _, hobject, -⟩
    obtain ⟨_, _, hlist⟩ := hlist
    cases hobject.symm.trans hlist

end

/-! ## Reading -/

theorem Order.codec_throughValue : Order.codec.ThroughValue := .object

/-- A map that is read as a value first has its own names, and under each the last list. -/
theorem tells_map {pair : String} {members : List (Key × Document)} {rows : List (String × Value)}
    {orders : OpenOrders}
    (each : List.Forall₂ (fun m e => m.1.name = .ok e.1 ∧ Value.ofDocument m.2 = .ok e.2)
      members rows)
    (read : OpenOrders.codec.decode (Value.object (Dictionary.ofList rows).entries).toDocument =
      .ok orders) :
    OrdersTold pair (some (.object members none)) orders := by
  obtain ⟨entries, hentries, rfl⟩ := Codec.entries_of_decodeMembers read
  refine .map ?_ ?_
  · intro m hm
    obtain ⟨e, -, hname, -⟩ := exists_related_of_mem each.flip hm
    exact ⟨e.1, hname⟩
  · intro name
    -- The members of the document, the rows they are read as and the entries of the map that is
    -- made of these are looked through from behind, one beside the other.
    have hrows : Option.Rel (fun d v => Value.ofDocument d = .ok v) (lastMember? name members)
        (Entries.find? name rows.reverse) := by
      refine rel_find? (List.forall₂_reverse_iff.2 (each.imp fun m e related => ⟨?_, related.2⟩))
      rw [related.1, Bool.eq_iff_iff, decide_eq_true_iff, beq_iff_eq]
      exact ⟨Except.ok.inj, congrArg Except.ok⟩
    have hvalues : Entries.find? name rows.reverse =
        Entries.find? name (Dictionary.ofList rows).entries.reverse := by
      rw [← Dictionary.find?_ofList, ← Dictionary.find?_ofList, Dictionary.ofList_of_perm (.refl _)]
    have hfound : Option.Rel
        (fun v found => (Codec.list Order.codec).decode (Value.toDocument v) = .ok found)
        (Entries.find? name rows.reverse) ((Dictionary.ofList entries).find? name) := by
      rw [hvalues, Dictionary.find?_ofList]
      refine rel_find? (List.forall₂_reverse_iff.2
        (hentries.imp fun e x related => ⟨?_, related.2⟩))
      rw [related.1]
    have hthrough : ∀ d v found, Value.ofDocument d = .ok v →
        (Codec.list Order.codec).decode v.toDocument = .ok found →
          (Codec.list Order.codec).decode d = .ok found := fun _ _ _ hd hv =>
      Order.codec_throughValue.list hd hv
    exact rel_trans hthrough hrows hfound

/-- What is made of the value that stands for the orders. -/
theorem tells_of_openOrders {pair : String} {told : Option Document} {v : Value}
    {orders : OpenOrders}
    (valued : match told with
      | none => v = .null
      | some d => Value.ofDocument d = .ok v)
    (read : Operation.openOrders pair v = .ok orders) : OrdersTold pair told orders := by
  cases told with
  | none =>
    cases valued
    cases read
    exact .missing
  | some d =>
    cases v with
    | null =>
      cases read
      rw [Value.leaf_of_null valued]
      exact .null
    | array vs =>
      obtain ⟨items, rfl, hitems⟩ := Value.array_of_array valued
      obtain ⟨found, hfound, hpure⟩ := Except.bind_eq_ok.1 read
      cases hpure
      have hlist := Order.codec_throughValue.list valued (Except.mapError_eq_ok.1 hfound)
      exact .list (Codec.decodeItems_eq_ok_iff.1 hlist).2
    | object ms =>
      obtain ⟨members, rows, rfl, heach, rfl⟩ := Value.object_of_object valued
      exact tells_map heach (Except.mapError_eq_ok.1 read)
    | bool | number | string => cases read

theorem shows_contents {β : Type} (c : Codec β) :
    Record.Shows (Envelope.fields c) "return" (.option c) (·.contents) := by
  have hreads : ∀ d, ((RecordField.of "return" (.option c) (·.contents)
      fun (e : Envelope β) x => { e with contents := x }).neededInArrays).read d =
        ((Codec.option c).decode d).map fun a t => { t with contents := a } := fun _ => rfl
  refine .of_read (List.mem_of_getElem? (i := 3) rfl) rfl hreads (fun _ _ => rfl) ?_
  simp only [Envelope.fields, List.forall_mem_cons, List.not_mem_nil, false_imp_iff, implies_true,
    and_true]
  refine ⟨?_, ?_, ?_, fun other => absurd rfl other⟩
  all_goals exact fun _ => RecordField.keeps_of (fun _ => rfl) fun _ _ => rfl

theorem shows_orders :
    Record.Shows [RecordField.of "orders" Codec.value id fun _ x => x] "orders" .value id :=
  .of List.mem_cons_self (fun _ _ => rfl) fun _ hf other =>
    absurd (congrArg RecordField.name (List.mem_singleton.1 hf)) other

/-- The reply to a private call stands under its own name, or in the last place. -/
theorem returned_of_readPrivate {β : Type} {c : Codec β} {method : String} {r : Http.Response}
    {a : β} (success : readPrivate method c r = .ok a) :
    ∃ contents, fieldAt? "return" 3 (Json.readText r.body).document = some contents ∧
      c.decode contents = .ok a := by
  obtain ⟨e, hread, -, hcontents⟩ := envelope_of_readPrivate success
  have hshown := Record.decode_fieldAt (Envelope.replyRow c).loose (Envelope.replyRow c).distinct
    (shows_contents c) 3 rfl (decode_of_readBody hread)
  cases hfound : fieldAt? "return" 3 (Json.readText r.body).document with
  | none =>
    rw [hfound] at hshown
    cases hcontents.symm.trans hshown
  | some contents =>
    rw [hfound, Record.Shown, hcontents] at hshown
    exact ⟨contents, rfl, Codec.decode_of_option hshown⟩

theorem read_userOrdersOpen {pair : String} {r : Http.Response} {orders : OpenOrders}
    (success : (Operation.userOrdersOpen pair).read r = .ok orders) :
    ∃ contents, fieldAt? "return" 3 (Json.readText r.body).document = some contents ∧
      OrdersTold pair (fieldAt? "orders" 0 contents) orders := by
  obtain ⟨v, hv, horders⟩ := Except.bind_eq_ok.1 success
  obtain ⟨contents, hcontents, hdecode⟩ := returned_of_readPrivate hv
  have hshown := Record.decode_fieldAt ⟨by simp [RecordField.of], by simp [RecordField.of]⟩
    (List.pairwise_singleton _ _) shows_orders 0 rfl hdecode
  refine ⟨contents, hcontents, tells_of_openOrders ?_ horders⟩
  cases hfound : fieldAt? "orders" 0 contents with
  | none =>
    rw [hfound] at hshown
    exact hshown
  | some d =>
    rw [hfound] at hshown
    exact Except.mapError_eq_ok.1 hshown

/-- The pair is among what is sent, unless there is none. -/
theorem asked_pair {pair : String} {s : Settings} {now : Instant} {transport : Transport}
    {q : Http.Request} (sent : q ∈ sentBy s now transport (.userOrdersOpen pair)) :
    Entries.find? "pair" (sentParams q) = if pair = "" then none else some pair := by
  have hplan : ∀ p, (Operation.userOrdersOpen pair).plan = .ok p → p.target =
      .method "openOrders" (if pair.isEmpty then .empty else .ofList [("pair", pair)]) := by
    intro p hp
    cases hp
    rfl
  rw [find?_sentParams hplan sent (by decide) (by decide)]
  by_cases hempty : pair = ""
  · rw [if_pos hempty, if_pos (String.isEmpty_iff.2 hempty)]
    rfl
  · have honce : ([("pair", pair)].map (·.1)).Nodup := List.nodup_singleton "pair"
    rw [if_neg hempty, if_neg (by rwa [String.isEmpty_iff]),
      Dictionary.find?_ofList_of_mem honce List.mem_cons_self]

/-- What a call for open orders comes to if it succeeds. A map is told as it stands, under its own
names, and a list in its order under the pair that was asked for; nothing, null and an empty map
are no orders. Where no pair was asked for a list is told under the empty name, which is the only
case in which a name is told that was neither asked for nor in the reply. -/
theorem open_orders_told (s : Settings) (now : Instant) (transport : Transport) (pair : String)
    (orders : OpenOrders)
    (accepted : (((Operation.userOrdersOpen pair).call s now).run transport).2 = .ok orders) :
    ∃ q r contents, sentBy s now transport (.userOrdersOpen pair) = [q] ∧
      Entries.find? "pair" (sentParams q) = (if pair = "" then none else some pair) ∧
      transport [q] = .ok r ∧
      fieldAt? "return" 3 (Json.readText r.body).document = some contents ∧
      let told := fieldAt? "orders" 0 contents
      OrdersTold pair told orders ∧
      (orders = .empty ↔
        told = none ∨ told = some (.leaf .null) ∨ told = some (.object [] none)) ∧
      ((∃ name, (orders.find? name).isSome = true ∧ ¬Names told name ∧
        ¬(name = pair ∧ pair ≠ "")) ↔ pair = "" ∧ IsList told) := by
  obtain ⟨q, r, hsent, hanswered, hread⟩ := Operation.reply_of_success accepted
  obtain ⟨contents, hcontents, htells⟩ := read_userOrdersOpen hread
  have hasked := asked_pair (hsent ▸ List.mem_singleton_self q)
  exact ⟨q, r, contents, hsent, hasked, hanswered, hcontents, htells, htells.eq_empty_iff,
    htells.unnamed_iff⟩

/-- The list of a pair that was asked for is told under this pair. -/
theorem list_of_pair_told :
    let s : Settings := { token := "my-key", secret := "secr3t" }
    let reply : Http.Response := ⟨200, "\x7b\"success\":1,\"return\":" ++
      "\x7b\"orders\":[\x7b\"order_id\":\"5\"\x7d]\x7d\x7d"⟩
    ∃ q contents orders,
      (((Operation.userOrdersOpen "ten_btc").call s ⟨1574423788000⟩).run fun _ => .ok reply).2 =
        .ok orders ∧
      Entries.find? "pair" (sentParams q) = some "ten_btc" ∧
      orders.find? "ten_btc" = some [{ orderId := 5 }] ∧
      OrdersTold "ten_btc" (fieldAt? "orders" 0 contents) orders := by
  intro s reply
  have htold : (((Operation.userOrdersOpen "ten_btc").call s ⟨1574423788000⟩).run
      fun _ => .ok reply).2.toOption =
        some (Dictionary.ofList [("ten_btc", [{ orderId := 5 }])]) := by decide +kernel
  have haccepted := Except.toOption_eq_some.1 htold
  obtain ⟨q, r, contents, -, hasked, -, -, htells, -⟩ := open_orders_told s _ _ _ _ haccepted
  exact ⟨q, contents, _, haccepted, hasked, by decide, htells⟩

/-- An empty list, which stands for no orders, is told as those of a pair without a name. -/
theorem empty_list_filed :
    ¬∀ (s : Settings) (now : Instant) (pair : String) (orders : OpenOrders) (r : Http.Response)
      (contents : Document),
        (((Operation.userOrdersOpen pair).call s now).run fun _ => .ok r).2 = .ok orders →
        fieldAt? "return" 3 (Json.readText r.body).document = some contents →
        let told := fieldAt? "orders" 0 contents
        (told = none ∨ told = some (.leaf .null) ∨ told = some (.object [] none) ∨
          told = some (.array [] none) → pair = "" → orders = .empty) ∧
        ∀ name, (orders.find? name).isSome = true → Names told name ∨ name = pair ∧ pair ≠ "" := by
  intro claimed
  let s : Settings := { token := "my-key", secret := "secr3t" }
  obtain ⟨body, hbody, htold⟩ : ∃ body, (Json.readText body).document = .object
      [(.quoted (.string "success"), .leaf (.number (.int 1))),
        (.quoted (.string "return"),
          .object [(.quoted (.string "orders"), .array [] none)] none)] none ∧
      (((Operation.userOrdersOpen "").call s ⟨1574423788000⟩).run
        fun _ => .ok ⟨200, body⟩).2.toOption = some (Dictionary.ofList [("", [])]) :=
    ⟨"\x7b\"success\":1,\"return\":\x7b\"orders\":[]\x7d\x7d", rfl, by decide +kernel⟩
  have hcontents : fieldAt? "return" 3 (Json.readText body).document =
      some (.object [(.quoted (.string "orders"), .array [] none)] none) := by
    rw [hbody]
    simp [fieldAt?, Key.name]
  obtain ⟨hempty, -⟩ := claimed s _ "" _ ⟨200, body⟩ _ (Except.toOption_eq_some.1 htold) hcontents
  exact absurd (hempty (Or.inr (Or.inr (Or.inr rfl))) rfl) (by decide)

end TradeApi
end ExchangeClient
