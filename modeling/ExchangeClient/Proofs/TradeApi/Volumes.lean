import ExchangeClient.Proofs.TradeApi.Members
import ExchangeClient.Proofs.TradeApi.OpenOrders
import ExchangeClient.Proofs.Trading.Pairs

/-!
# The volumes of tickers

The volume of an asset stands in a ticker under a member of its own, whose name
is `vol_` and the asset in letters of either case. A ticker that was asked for is
about the pair in the question; one of a summary about the pair in its own name,
or else about that of its listing.
-/

namespace ExchangeClient.TradeApi

open Json

/-! ## What the members of a ticker give -/

/-- The volume of an asset, which is zero if no member gives it. -/
def GivesVolume (members : List (Key × Document)) (asset : String) (volume : Decimal) : Prop :=
  match lowerMember? ("vol_" ++ asset) members with
  | none => volume = .zero
  | some d => ∃ v, Value.ofDocument d = .ok v ∧ lenientDecimal ("vol_" ++ asset) v = .ok volume

/-- The volumes that a ticker has of a pair. -/
def GivesVolumes (members : List (Key × Document)) (p : Pair) (t : Ticker) : Prop :=
  GivesVolume members p.coin t.coinVolume ∧ GivesVolume members p.base t.baseVolume

/-- The name of a ticker, which is empty if no member gives it. -/
def GivesName (members : List (Key × Document)) (name : String) : Prop :=
  match lowerMember? "name" members with
  | none => name = ""
  | some d => ∃ v, Value.ofDocument d = .ok v ∧ lenientText v = name

/-- The pair that a listed ticker is about: that of its own name, or else that of its listing. -/
def IsAbout (members : List (Key × Document)) (listing : String) (p : Pair) : Prop :=
  ∃ own, GivesName members own ∧
    (Pair.parse own = .ok p ∨ (∀ q, Pair.parse own ≠ .ok q) ∧ Pair.parse listing = .ok p)

namespace Ticker

theorem volumeAsset?_eq_some_iff {name asset : String} :
    volumeAsset? name = some asset ↔
      name = "vol_" ++ asset ∧ asset ≠ "" ∧ '_' ∉ asset.toList := by
  rw [volumeAsset?, Option.filter_eq_some_iff, suffixAfter?_eq_some_iff]
  simp

variable {t u : Ticker} {name asset : String} {v : Value}

/-- A member changes the volumes just if its name is that of one. -/
theorem take_cases (taken : take t name v = .ok u) :
    (volumeAsset? name = none ∧ u.volumes = t.volumes) ∨
      ∃ asset x, volumeAsset? name = some asset ∧ lenientDecimal name v = .ok x ∧
        u = { t with volumes := t.volumes.insert asset x } := by
  unfold take at taken
  split at taken
  · cases taken
    exact Or.inl ⟨by decide, rfl⟩
  case h_7 =>
    split at taken
    · rename_i asset hasset
      obtain ⟨x, hx, hu⟩ := Except.bind_eq_ok.1 taken
      exact Or.inr ⟨asset, x, hasset, hx, (Except.ok.inj hu).symm⟩
    · rename_i hnone
      cases taken
      exact Or.inl ⟨hnone, rfl⟩
  all_goals
    obtain ⟨x, -, hu⟩ := Except.bind_eq_ok.1 taken
    cases hu
    exact Or.inl ⟨by decide, rfl⟩

theorem concerns_volume (present : asset ≠ "") (plain : '_' ∉ asset.toList) :
    Concerns take (· = "vol_" ++ asset) (fun name v => (lenientDecimal name v).map some)
      (·.volumes.find? asset) where
  means := by
    rintro t u name v rfl taken
    have hasset := volumeAsset?_eq_some_iff.2 ⟨rfl, present, plain⟩
    rcases take_cases taken with ⟨hnone, -⟩ | ⟨asset', x, hsome, hx, rfl⟩
    · cases hasset.symm.trans hnone
    · cases hasset.symm.trans hsome
      rw [hx, Dictionary.find?_insert, if_pos rfl]
      rfl
  keeps := by
    intro t u name v other taken
    rcases take_cases taken with ⟨-, hkept⟩ | ⟨asset', x, hsome, -, rfl⟩
    · exact congrArg (·.find? asset) hkept
    · have hdifferent : asset' ≠ asset := by
        rintro rfl
        exact other (volumeAsset?_eq_some_iff.1 hsome).1
      exact (Dictionary.find?_insert ..).trans (if_neg hdifferent)

theorem concerns_name : Concerns take (· = "name") (fun _ v => .ok (lenientText v)) (·.name) where
  means := by
    rintro t u name v rfl taken
    cases taken
    rfl
  keeps := by
    intro t u name v other taken
    unfold take at taken
    split at taken
    · exact absurd rfl other
    case h_7 =>
      split at taken
      · obtain ⟨x, -, hu⟩ := Except.bind_eq_ok.1 taken
        cases hu
        rfl
      · cases taken
        rfl
    all_goals
      obtain ⟨x, -, hu⟩ := Except.bind_eq_ok.1 taken
      cases hu
      rfl

variable {members : List (Key × Document)} {d : Document}

theorem object_of_codec (read : codec.decode d = .ok t) : ∃ members, d = .object members none := by
  obtain ⟨_, hvalued, -⟩ := object_of_objectCodec read
  obtain ⟨members, -, hdocument, -, -⟩ := Value.object_of_object hvalued
  exact ⟨members, hdocument⟩

theorem givesVolume (distinct : LowerDistinct members)
    (read : codec.decode (.object members none) = .ok t) (present : asset ≠ "")
    (plain : '_' ∉ asset.toList) : GivesVolume members asset (t.volume asset) := by
  have hfound := (concerns_volume present plain).of_lowerMember distinct read
  rw [GivesVolume]
  cases hmember : lowerMember? ("vol_" ++ asset) members with
  | none =>
    rw [hmember] at hfound
    exact congrArg (·.getD .zero) hfound
  | some d =>
    rw [hmember] at hfound
    obtain ⟨v, hv, hgives⟩ := hfound
    obtain ⟨x, hx, hsome⟩ := Except.map_eq_ok.1 hgives
    refine ⟨v, hv, ?_⟩
    rw [hx, volume, ← hsome]
    rfl

/-- A ticker has the volumes its members give of the pair in whatever name it takes. -/
theorem givesVolumes {p : Pair} (distinct : LowerDistinct members)
    (read : codec.decode (.object members none) = .ok t) (named : Pair.parse name = .ok p) :
    GivesVolumes members p { t with name := name } := by
  have hpair : ({ t with name := name } : Ticker).pair? = some p := by
    rw [pair?, named]
    rfl
  have hvolume : ∀ asset, ({ t with name := name } : Ticker).volume asset = t.volume asset :=
    fun _ => rfl
  rw [GivesVolumes, coinVolume, baseVolume, hpair, Option.map_some, Option.map_some, hvolume,
    hvolume]
  exact ⟨givesVolume distinct read p.coin_ne p.coin_plain,
    givesVolume distinct read p.base_ne p.base_plain⟩

theorem givesName (distinct : LowerDistinct members)
    (read : codec.decode (.object members none) = .ok t) : GivesName members t.name := by
  have hfound := concerns_name.of_lowerMember distinct read
  rw [GivesName]
  cases hmember : lowerMember? "name" members with
  | none =>
    rw [hmember] at hfound
    exact hfound
  | some d =>
    rw [hmember] at hfound
    obtain ⟨v, hv, hgives⟩ := hfound
    exact ⟨v, hv, Except.ok.inj hgives⟩

end Ticker

theorem GivesName.unique {members : List (Key × Document)} {name other : String}
    (first : GivesName members name) (second : GivesName members other) : name = other := by
  rw [GivesName] at first second
  split at first
  · rename_i hmember
    rw [hmember] at second
    exact first.trans second.symm
  · rename_i hmember
    rw [hmember] at second
    obtain ⟨v, hv, rfl⟩ := first
    obtain ⟨w, hw, rfl⟩ := second
    cases hv.symm.trans hw
    rfl

/-! ## Listed tickers -/

/-- A ticker of a summary as its document gives it. -/
def TickerTold (listing : String) (d : Document) (t : Ticker) : Prop :=
  ∃ members, d = .object members none ∧
    (LowerDistinct members → ∀ p, IsAbout members listing p → GivesVolumes members p t)

/-- The tickers of a summary, by what stands for them in it. -/
inductive TickersTold : Option Document → Dictionary Ticker → Prop where
  | missing : TickersTold none .empty
  | listed {members : List (Key × Document)} {tickers : Dictionary Ticker}
    (each : ∀ listing, Option.Rel (TickerTold listing) (lastMember? listing members)
      (tickers.find? listing)) : TickersTold (some (.object members none)) tickers

theorem tickerTold {listing : String} {d : Document} {t : Ticker}
    (read : Ticker.codec.decode d = .ok t) :
    TickerTold listing d (Summary.nameTicker listing t) := by
  obtain ⟨members, rfl⟩ := Ticker.object_of_codec read
  refine ⟨members, rfl, ?_⟩
  rintro distinct p ⟨own, hown, habout⟩
  obtain rfl := (Ticker.givesName distinct read).unique hown
  rw [Summary.nameTicker, Ticker.pair?]
  rcases habout with hparsed | ⟨hnone, hparsed⟩
  · have hsome : (Pair.parse t.name).toOption.isSome = true := by
      rw [hparsed]
      rfl
    rw [if_pos hsome]
    exact Ticker.givesVolumes distinct read hparsed
  · have hmissing : (Pair.parse t.name).toOption.isSome = false := by
      cases hname : Pair.parse t.name with
      | error e => rfl
      | ok q => exact absurd hname (hnone q)
    rw [hmissing, if_neg Bool.false_ne_true]
    refine Ticker.givesVolumes distinct read ?_
    rw [Pair.parse_congr (Pair.normal_lower listing), hparsed]

theorem find?_named (s : Summary) (listing : String) :
    s.named.tickers.find? listing = (s.tickers.find? listing).map (Summary.nameTicker listing) :=
  Entries.find?_map Summary.nameTicker listing s.tickers.entries

/-- The tickers of a document are told under the names they have there. -/
theorem tickersTold {d : Document} {s : Summary}
    (read : (Codec.dictionary Ticker.codec).decode d = .ok s.tickers) :
    TickersTold (some d) s.named.tickers := by
  cases d with
  | object members ending =>
    obtain ⟨rfl, entries, heach, hentries⟩ := Codec.entries_of_members read
    refine .listed fun listing => ?_
    have hfound : s.named.tickers.find? listing =
        (entries.reverse.find? fun e => e.1 == listing).map fun e =>
          Summary.nameTicker listing e.2 := by
      rw [find?_named, hentries]
      exact (congrArg _ (Dictionary.find?_ofList listing entries)).trans (Option.map_map _ _ _)
    rw [hfound]
    refine rel_find? (List.forall₂_reverse_iff.2 (heach.imp fun m e related => ⟨?_, ?_⟩))
    · rw [related.1, Bool.eq_iff_iff, decide_eq_true_iff, beq_iff_eq]
      exact ⟨Except.ok.inj, congrArg Except.ok⟩
    · exact tickerTold related.2
  | deep d => cases d <;> cases read
  | leaf | array => cases read

/-! ## Reading -/

theorem decode_of_readPublic {α : Type} {c : Codec α} {r : Http.Response} {a : α}
    (success : readPublic c r = .ok a) : c.decode (Json.readText r.body).document = .ok a := by
  obtain ⟨_, -, hread⟩ := Except.bind_eq_ok.1 success
  exact decode_of_readBody hread

/-- The one field of the answer to a question for a ticker. -/
def tickerField : RecordField TickerAnswer :=
  (RecordField.of "ticker" Ticker.codec (·.ticker) fun a x => { a with ticker := x }).needed

theorem ticker_goesBy : Record.GoesBy [tickerField] "ticker" ["ticker"] := by
  intro given
  by_cases hgiven : given = "ticker"
  · subst hgiven
    exact iff_of_true rfl List.mem_cons_self
  · have hnone : tickerField.isCalled given = false := by
      simpa [tickerField, RecordField.isCalled, RecordField.needed, RecordField.of] using
        Ne.symm hgiven
    have hmissing : [tickerField].find? (RecordField.isCalled given) = none := by
      rw [List.find?_cons, hnone, List.find?_nil]
    rw [hmissing, Option.map_none, List.mem_singleton]
    exact iff_of_false (Option.some_ne_none _).symm hgiven

theorem shows_ticker : Record.Shows [tickerField] "ticker" Ticker.codec (·.ticker) :=
  .of_read List.mem_cons_self rfl (fun _ => rfl) (fun _ _ => rfl) fun _ hf other =>
    absurd (congrArg RecordField.name (List.mem_singleton.1 hf)) other

theorem shows_tickers :
    Record.Shows Summary.fields "tickers" (.dictionary Ticker.codec) (·.tickers) := by
  refine .of_read (List.mem_of_getElem? (i := 0) rfl) rfl (fun _ => rfl) (fun _ _ => rfl) ?_
  simp only [Summary.fields, List.forall_mem_cons, List.not_mem_nil, false_imp_iff, implies_true,
    and_true]
  refine ⟨fun other => absurd rfl other, ?_, ?_⟩
  all_goals exact fun _ => RecordField.keeps_of (fun _ => rfl) fun _ _ => rfl

/-- The tickers of a summary go by two names. -/
theorem tickers_goesBy : Record.GoesBy Summary.fields "tickers" ["tickers", "pairs"] := by
  intro given
  by_cases hgiven : given ∈ ["tickers", "pairs"]
  · refine iff_of_true ?_ hgiven
    simp only [List.mem_cons, List.not_mem_nil, or_false] at hgiven
    rcases hgiven with rfl | rfl <;> rfl
  · refine iff_of_false (fun found => hgiven ?_) hgiven
    obtain ⟨f, hfound, hname⟩ := Option.map_eq_some_iff.1 found
    have hcalled := List.find?_some hfound
    have hmem := List.mem_of_find?_eq_some hfound
    simp only [Summary.fields, List.mem_cons, List.not_mem_nil, or_false] at hmem
    rcases hmem with rfl | rfl | rfl
    · simp only [RecordField.isCalled, RecordField.orNamed, RecordField.of, Bool.or_eq_true,
        beq_iff_eq, List.contains_iff_mem] at hcalled
      rcases hcalled with rfl | hother
      · exact List.mem_cons_self
      · exact List.mem_cons_of_mem _ hother
    · cases (by decide : "prices_24h" ≠ "tickers") hname
    · cases (by decide : "prices_7d" ≠ "tickers") hname

theorem read_marketTicker {pair : String} {p : Pair} {r : Http.Response} {t : Ticker}
    (parsed : Pair.parse pair = .ok p) (success : (Operation.marketTicker pair).read r = .ok t) :
    ∃ members, fieldAt? "ticker" 0 (Json.readText r.body).document = some (.object members none) ∧
      (LowerDistinct members → GivesVolumes members p t) := by
  obtain ⟨a, ha, rfl⟩ := Except.map_eq_ok.1 success
  have hdecode := decode_of_readPublic ha
  have hplaced : [tickerField][0]? = some tickerField := rfl
  obtain ⟨d, hfound⟩ := Record.decode_required ticker_goesBy hplaced rfl hdecode
  have hshown := Record.decode_among ticker_goesBy (List.pairwise_singleton _ _) shows_ticker 0 rfl
    hdecode
  rw [fieldAmong?_singleton] at hfound hshown
  rw [hfound] at hshown
  obtain ⟨members, rfl⟩ := Ticker.object_of_codec hshown
  exact ⟨members, hfound, fun distinct => Ticker.givesVolumes distinct hshown parsed⟩

theorem read_marketSummaries {r : Http.Response} {summary : Summary}
    (success : Operation.marketSummaries.read r = .ok summary) :
    TickersTold (fieldAmong? ["tickers", "pairs"] 0 (Json.readText r.body).document)
      summary.tickers := by
  obtain ⟨s, hs, rfl⟩ := Except.map_eq_ok.1 success
  have hshown := Record.decode_among tickers_goesBy (by decide) shows_tickers 0 rfl
    (decode_of_readPublic hs)
  cases hfound : fieldAmong? ["tickers", "pairs"] 0 (Json.readText r.body).document with
  | none =>
    rw [hfound] at hshown
    have hnone : s.named.tickers = .empty :=
      Dictionary.ext_entries (congrArg (List.map _) (congrArg Dictionary.entries hshown))
    rw [hnone]
    exact .missing
  | some d =>
    rw [hfound] at hshown
    exact tickersTold hshown

/-- What the tickers say that two calls come to, if they succeed. The one that was asked for is
about the pair of the question; those of a summary are about the pair in their own name, or else
about that of their listing. The volumes are those of the members that are named after the coin and
the base in lower case, and zero where there is none. -/
theorem volumes_told (s : Settings) (now : Instant) (transport : Transport) :
    (∀ pair p t, Pair.parse pair = .ok p →
      (((Operation.marketTicker pair).call s now).run transport).2 = .ok t →
        ∃ q r members, sentBy s now transport (.marketTicker pair) = [q] ∧
          transport [q] = .ok r ∧
          fieldAt? "ticker" 0 (Json.readText r.body).document = some (.object members none) ∧
          (LowerDistinct members → GivesVolumes members p t)) ∧
    ∀ summary, ((Operation.marketSummaries.call s now).run transport).2 = .ok summary →
      ∃ q r, sentBy s now transport .marketSummaries = [q] ∧ transport [q] = .ok r ∧
        TickersTold (fieldAmong? ["tickers", "pairs"] 0 (Json.readText r.body).document)
          summary.tickers := by
  refine ⟨fun pair p t parsed success => ?_, fun summary success => ?_⟩
  · obtain ⟨q, r, hsent, hanswered, hread⟩ := Operation.reply_of_success success
    obtain ⟨members, hfound, hgives⟩ := read_marketTicker parsed hread
    exact ⟨q, r, members, hsent, hanswered, hfound, hgives⟩
  · obtain ⟨q, r, hsent, hanswered, hread⟩ := Operation.reply_of_success success
    exact ⟨q, r, hsent, hanswered, read_marketSummaries hread⟩

/-- Volumes under names in upper case: those of the ticker that was asked for, and those of a
listing in upper case whose ticker has no name. -/
theorem volumes_in_upper_case :
    let s : Settings := {}
    let now : Instant := ⟨1574423788000⟩
    let pair : Pair := ⟨"ten", "btc", by decide, by decide, by decide, by decide⟩
    let ticker := "\x7b\"VOL_TEN\":\"12.5\",\"vol_btc\":2\x7d"
    let asked : Http.Response := ⟨200, "\x7b\"ticker\":" ++ ticker ++ "\x7d"⟩
    let listed : Http.Response :=
      ⟨200, "\x7b\"pairs\":\x7b\"TEN_BTC\":" ++ ticker ++ "\x7d\x7d"⟩
    ∃ t members summary, (((Operation.marketTicker "ten_btc").call s now).run
        fun _ => .ok asked).2 = .ok t ∧
      t.coinVolume = ⟨false, 125, 1, by decide, by decide⟩ ∧
      LowerDistinct members ∧ GivesVolumes members pair t ∧
      ((Operation.marketSummaries.call s now).run fun _ => .ok listed).2 = .ok summary ∧
      TickersTold (fieldAmong? ["tickers", "pairs"] 0 (Json.readText listed.body).document)
        summary.tickers := by
  intro s now pair ticker asked listed
  let volumes : Dictionary Decimal := .ofList
    [("ten", ⟨false, 125, 1, by decide, by decide⟩), ("btc", ⟨false, 2, 0, by decide, by decide⟩)]
  let members : List (Key × Document) := [(.quoted (.string "VOL_TEN"), .leaf (.string "12.5")),
    (.quoted (.string "vol_btc"), .leaf (.number (.int 2)))]
  have hasked : (((Operation.marketTicker "ten_btc").call s now).run
      fun _ => .ok asked).2.toOption = some { name := "ten_btc", volumes := volumes } := by
    decide +kernel
  have hlisted : ((Operation.marketSummaries.call s now).run fun _ => .ok listed).2.toOption =
      some { tickers := .ofList [("TEN_BTC", { name := "ten_btc", volumes := volumes })] } := by
    decide +kernel
  have hparsed : Pair.parse "ten_btc" = .ok pair := by decide +kernel
  have hsummary := Except.toOption_eq_some.1 hlisted
  have hticker := Except.toOption_eq_some.1 hasked
  obtain ⟨q, r, members', -, hanswered, hfound, hgives⟩ :=
    (volumes_told s now fun _ => .ok asked).1 "ten_btc" pair _ hparsed hticker
  obtain ⟨q', r', -, hanswered', htold⟩ := (volumes_told s now fun _ => .ok listed).2 _ hsummary
  cases hanswered
  cases hanswered'
  have hmembers : fieldAt? "ticker" 0 (Json.readText asked.body).document =
      some (.object members none) := by
    have hdocument : (Json.readText asked.body).document =
        .object [(.quoted (.string "ticker"), .object members none)] none := by
      unfold asked ticker members
      rfl
    rw [hdocument]
    simp [fieldAt?, Key.name]
  cases hmembers.symm.trans hfound
  have hdistinct : LowerDistinct members := by
    unfold LowerDistinct
    decide +kernel
  exact ⟨_, members, _, hticker, by decide +kernel, hdistinct, hgives hdistinct, hsummary, htold⟩

end ExchangeClient.TradeApi
