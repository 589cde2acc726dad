import ExchangeClient.Proofs.Json.Codecs
import ExchangeClient.Proofs.Text.Lowering
import ExchangeClient.Trading.Pair
import Mathlib.Data.String.Basic

/-!
# The name of a pair

A pair is read from a text that comes to two names around one underscore when it is
trimmed and put into lower case, and from no other. What the text comes to is the
name of the pair, and stays what it is when it is trimmed and put into lower case
again, so a pair is read back from its name.
-/

namespace ExchangeClient.Pair

variable {p q : Pair} {text : String}

/-- A text trimmed and in lower case. -/
def normal (text : String) : String := Text.lower (Text.trim text)

theorem toList_normal (text : String) :
    (normal text).toList = Text.lowerChars (Text.trimChars text.toList) := by
  rw [normal, Text.lower, Text.trim, String.toList_ofList, String.toList_ofList]

theorem toList_name (p : Pair) : p.name.toList = p.coin.toList ++ '_' :: p.base.toList := by
  rw [name, String.toList_append, String.toList_append]
  exact List.append_assoc _ _ _

/-! ## Taking a name apart -/

theorem takeWhile_coin {cs : List Char} (plain : '_' ∉ cs) (rest : List Char) :
    (cs ++ '_' :: rest).takeWhile (· ≠ '_') = cs := by
  rw [List.takeWhile_append_of_pos, List.takeWhile_cons_of_neg, List.append_nil]
  · simp
  · intro c hc
    simpa using ne_of_mem_of_not_mem hc plain

theorem dropWhile_coin {cs : List Char} (plain : '_' ∉ cs) (rest : List Char) :
    (cs ++ '_' :: rest).dropWhile (· ≠ '_') = '_' :: rest := by
  rw [List.dropWhile_append_of_pos, List.dropWhile_cons_of_neg]
  · simp
  · intro c hc
    simpa using ne_of_mem_of_not_mem hc plain

/-- A pair is made from the characters of its name only. -/
theorem ofNormal?_eq_some_iff {cs : List Char} : ofNormal? cs = some p ↔ cs = p.name.toList := by
  rw [toList_name]
  constructor
  · intro made
    rw [ofNormal?] at made
    split at made
    · cases made
    · rename_i c base hdrop
      rw [ofParts?] at made
      split at made
      · cases made
        have hsep : c = '_' := by
          have hhead := List.head?_dropWhile_not (fun x => decide (x ≠ '_')) cs
          rw [hdrop] at hhead
          simpa using hhead
        subst hsep
        rw [String.toList_ofList, String.toList_ofList, ← hdrop, List.takeWhile_append_dropWhile]
      · cases made
  · rintro rfl
    rw [ofNormal?, dropWhile_coin p.coin_plain, takeWhile_coin p.coin_plain]
    simp only [String.ofList_toList]
    exact dif_pos ⟨p.coin_ne, p.base_ne, p.coin_plain, p.base_plain⟩

theorem parse_eq_ok_iff : parse text = .ok p ↔ normal text = p.name := by
  rw [← String.toList_inj, toList_normal, ← ofNormal?_eq_some_iff, parse]
  cases ofNormal? (Text.lowerChars (Text.trimChars text.toList)) with
  | none => exact iff_of_false nofun nofun
  | some q =>
    exact ⟨fun h => congrArg some (Except.ok.inj h), fun h => congrArg _ (Option.some.inj h)⟩

theorem parse_ok_or_invalid (text : String) :
    (∃ p, parse text = .ok p) ∨ parse text = .error .invalidPair := by
  rw [parse]
  cases ofNormal? (Text.lowerChars (Text.trimChars text.toList)) with
  | none => exact .inr rfl
  | some p => exact .inl ⟨p, rfl⟩

/-- Two names around one underscore. -/
def HasTwoParts (cs : List Char) : Prop :=
  cs.count '_' = 1 ∧ cs.head? ≠ some '_' ∧ cs.getLast? ≠ some '_'

theorem exists_of_parts {coin base : List Char} (coin_plain : '_' ∉ coin) (base_plain : '_' ∉ base)
    (coin_ne : coin ≠ []) (base_ne : base ≠ []) :
    ∃ p : Pair, p.name.toList = coin ++ '_' :: base := by
  have hcoin : String.ofList coin ≠ "" := by rwa [ne_eq, String.ofList_eq_empty_iff]
  have hbase : String.ofList base ≠ "" := by rwa [ne_eq, String.ofList_eq_empty_iff]
  refine ⟨⟨String.ofList coin, String.ofList base, hcoin, hbase, ?_, ?_⟩, ?_⟩
  · rwa [String.toList_ofList]
  · rwa [String.toList_ofList]
  · simp only [toList_name, String.toList_ofList]

theorem exists_name_iff {cs : List Char} : (∃ p : Pair, p.name.toList = cs) ↔ HasTwoParts cs := by
  constructor
  · rintro ⟨p, rfl⟩
    have hcoin : p.coin.toList ≠ [] := mt String.toList_eq_nil_iff.1 p.coin_ne
    have hbase : p.base.toList ≠ [] := mt String.toList_eq_nil_iff.1 p.base_ne
    rw [toList_name]
    refine ⟨?_, ?_, ?_⟩
    · rw [List.count_append, List.count_cons_self, List.count_eq_zero_of_not_mem p.coin_plain,
        List.count_eq_zero_of_not_mem p.base_plain]
    · rw [List.head?_append_of_ne_nil _ hcoin]
      exact fun hfirst => p.coin_plain (List.mem_of_head? hfirst)
    · rw [List.getLast?_append_of_ne_nil _ (List.cons_ne_nil _ _),
        List.getLast?_cons_of_ne_nil hbase]
      exact fun hlast => p.base_plain (List.mem_of_getLast? hlast)
  · rintro ⟨honce, hfirst, hlast⟩
    obtain ⟨coin, base, rfl⟩ :=
      List.append_of_mem (List.count_pos_iff.1 (honce.symm ▸ Nat.one_pos))
    rw [List.count_append, List.count_cons_self] at honce
    refine exists_of_parts (List.count_eq_zero.1 (by omega)) (List.count_eq_zero.1 (by omega)) ?_ ?_
    · rintro rfl
      exact hfirst rfl
    · rintro rfl
      exact hlast List.getLast?_concat

theorem parse_succeeds_iff : (∃ p, parse text = .ok p) ↔ HasTwoParts (normal text).toList := by
  rw [← exists_name_iff]
  exact exists_congr fun p => parse_eq_ok_iff.trans (eq_comm.trans String.toList_inj.symm)

/-! ## Names are normal -/

theorem normal_trimmed (text : String) : Text.Trimmed (normal text).toList := by
  rw [toList_normal]
  exact (Text.trimmed_trimChars _).lowerChars

theorem normal_normal (text : String) : normal (normal text) = normal text := by
  rw [← String.toList_inj, toList_normal, (normal_trimmed text).trimChars_eq, toList_normal,
    Text.lowerChars_lowerChars]

/-- A text in lower case comes to what the text comes to. -/
theorem normal_lower (text : String) : normal (Text.lower text) = normal text := by
  rw [← String.toList_inj, toList_normal, toList_normal, Text.toList_lower,
    Text.trimChars_lowerChars, Text.lowerChars_lowerChars]

theorem parse_congr {other : String} (same : normal text = normal other) :
    parse text = parse other := by
  have hchars := congrArg String.toList same
  rw [toList_normal, toList_normal] at hchars
  rw [parse, parse, hchars]

/-- A pair is read back from its name. -/
theorem parse_name (parsed : parse text = .ok p) : parse p.name = .ok p := by
  rw [← parse_eq_ok_iff.1 parsed, parse_congr (normal_normal text), parsed]

/-! ## The bytes of a name -/

/-- The byte of its name at which the coin of a pair ends. -/
def split (p : Pair) : String.Pos.Raw := p.coin.rawEndPos

theorem split_isValid (p : Pair) : p.split.IsValid p.name := by
  rw [String.Pos.Raw.isValid_iff_exists_append]
  exact ⟨p.coin, "_" ++ p.base, String.append_assoc, rfl⟩

theorem extract_coin (p : Pair) : String.Pos.Raw.extract p.name 0 p.split = p.coin := by
  have hcut := String.extract_of_valid [] p.coin.toList ('_' :: p.base.toList)
  rw [List.nil_append, ← toList_name, String.ofList_toList, String.ofList_toList] at hcut
  simpa [split, String.rawEndPos, String.utf8Len_toList] using hcut

theorem extract_base (p : Pair) :
    String.Pos.Raw.extract p.name ⟨p.split.byteIdx + 1⟩ p.name.rawEndPos = p.base := by
  have hcut := String.extract_of_valid (p.coin.toList ++ ['_']) p.base.toList []
  rw [List.append_nil, List.append_assoc, List.singleton_append, ← toList_name,
    String.ofList_toList, String.ofList_toList] at hcut
  have hsep : String.utf8Len (p.coin.toList ++ ['_']) = p.split.byteIdx + 1 := by
    rw [String.utf8Len_append, String.utf8Len_toList]
    rfl
  have hall : p.split.byteIdx + 1 + String.utf8Len p.base.toList = p.name.rawEndPos.byteIdx := by
    rw [← hsep, ← String.utf8Len_append, List.append_assoc, List.singleton_append, ← toList_name,
      String.utf8Len_toList]
    rfl
  rwa [hsep, hall] at hcut

theorem codec_reads (parsed : parse text = .ok p) :
    codec.readText (codec.write p) = .ok p ∧
      codec.readBytes (Text.utf8 (codec.write p)) = .ok p := by
  have hdecode : codec.decode (codec.encode p).toDocument = .ok p := by
    have hname := parse_name parsed
    simp only [codec, Json.Value.toDocument, Json.Codec.string, bind, Except.bind, hname]
    rfl
  have hfits : (codec.encode p).Fits Json.maxDepth := .string p.name
  rw [Json.Codec.write, Json.Codec.readText_written _ hfits, Json.Codec.readBytes_written _ hfits]
  exact ⟨hdecode, hdecode⟩

/-- A text is read as a pair exactly if it comes to two names around one underscore. Then what it
comes to is the name of the pair, which is taken apart between characters, and the pair is read
back from its name and from what is written for it. -/
theorem parse_normal_text (text : String) :
    ((∃ p, parse text = .ok p) ↔ HasTwoParts (normal text).toList) ∧
    (¬HasTwoParts (normal text).toList → parse text = .error .invalidPair) ∧
    ∀ p, parse text = .ok p →
      p.name = normal text ∧ p.coin ++ "_" ++ p.base = p.name ∧
      p.coin ≠ "" ∧ p.base ≠ "" ∧ '_' ∉ p.coin.toList ∧ '_' ∉ p.base.toList ∧
      p.split.IsValid p.name ∧ String.Pos.Raw.extract p.name 0 p.split = p.coin ∧
      String.Pos.Raw.extract p.name ⟨p.split.byteIdx + 1⟩ p.name.rawEndPos = p.base ∧
      parse p.name = .ok p ∧ codec.readText (codec.write p) = .ok p ∧
      codec.readBytes (Text.utf8 (codec.write p)) = .ok p := by
  refine ⟨parse_succeeds_iff, fun hnot => ?_, fun p parsed => ?_⟩
  · exact (parse_ok_or_invalid text).resolve_left (mt parse_succeeds_iff.1 hnot)
  · exact ⟨(parse_eq_ok_iff.1 parsed).symm, rfl, p.coin_ne, p.base_ne, p.coin_plain, p.base_plain,
      p.split_isValid, p.extract_coin, p.extract_base, parse_name parsed, codec_reads parsed⟩

/-- The lower case of `Ⱥ` is a byte longer than the letter itself. -/
theorem parse_longer_lowering :
    HasTwoParts (normal " Ⱥ_BTC\n").toList ∧ (normal " Ⱥ_BTC\n") = "ⱥ_btc" ∧
    ∃ p, parse " Ⱥ_BTC\n" = .ok p ∧ p.coin = "ⱥ" ∧ p.split.byteIdx = 3 ∧
      codec.readText (codec.write p) = .ok p := by
  have hnormal : normal " Ⱥ_BTC\n" = "ⱥ_btc" := by decide +kernel
  have hparts : HasTwoParts (normal " Ⱥ_BTC\n").toList := by
    rw [hnormal]
    exact ⟨by decide +kernel, by decide +kernel, by decide +kernel⟩
  obtain ⟨hiff, -, hread⟩ := parse_normal_text " Ⱥ_BTC\n"
  obtain ⟨p, parsed⟩ := hiff.2 hparts
  obtain ⟨hname, -, -, -, -, -, -, -, -, -, hwritten, -⟩ := hread p parsed
  have hcoin : p.coin = "ⱥ" := by
    have hbefore := takeWhile_coin p.coin_plain p.base.toList
    rw [← toList_name, hname, hnormal] at hbefore
    rw [← String.toList_inj, ← hbefore]
    decide +kernel
  refine ⟨hparts, hnormal, p, parsed, hcoin, ?_, hwritten⟩
  rw [split, hcoin]
  decide +kernel

end ExchangeClient.Pair
