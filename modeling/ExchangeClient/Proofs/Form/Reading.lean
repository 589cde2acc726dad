import ExchangeClient.Proofs.Dictionary
import ExchangeClient.Proofs.Form.Escapes

/-!
# Forms are read back

A form is cut into its pairs where they were joined, and each pair where its
name ends. What comes out are the parameters that went in, in the order of
their names.
-/

namespace ExchangeClient.Form

theorem splitAll_piece {separator : Char} {piece : List Char} (clean : separator ∉ piece) :
    splitAll separator piece = [piece] := by
  induction piece with
  | nil => rfl
  | cons c piece ih =>
    obtain ⟨hc, hpiece⟩ := not_or.1 (mt List.mem_cons.2 clean)
    rw [splitAll, if_neg (Ne.symm hc), ih hpiece]

theorem splitAll_append {separator : Char} {piece : List Char} (clean : separator ∉ piece)
    (rest : List Char) :
    splitAll separator (piece ++ separator :: rest) = piece :: splitAll separator rest := by
  induction piece with
  | nil => rw [List.nil_append, splitAll, if_pos rfl]
  | cons c piece ih =>
    obtain ⟨hc, hpiece⟩ := not_or.1 (mt List.mem_cons.2 clean)
    rw [List.cons_append, splitAll, if_neg (Ne.symm hc), ih hpiece]

theorem mem_pairChars {p : String × String} {c : Char} (h : c ∈ pairChars p) :
    c ∈ encodeChars p.1 ∨ c = '=' ∨ c ∈ encodeChars p.2 := by
  simpa [pairChars] using h

theorem ampersand_not_mem_pairChars (p : String × String) : '&' ∉ pairChars p := by
  intro h
  rcases mem_pairChars h with h | h | h
  · exact (encodeChars_ne h).1 rfl
  · exact absurd h (by decide)
  · exact (encodeChars_ne h).1 rfl

/-- A pair is cut where its name ends. -/
theorem decodePair_pairChars (p : String × String) : decodePair (pairChars p) = p := by
  have hname : ∀ c ∈ encodeChars p.1, decide (c ≠ '=') = true :=
    fun c hc => decide_eq_true (encodeChars_ne hc).2
  have htake : (pairChars p).takeWhile (· ≠ '=') = encodeChars p.1 := by
    rw [pairChars, List.takeWhile_append_of_pos hname, List.takeWhile_cons_of_neg (by decide),
      List.append_nil]
  have hdrop : (pairChars p).dropWhile (· ≠ '=') = '=' :: encodeChars p.2 := by
    rw [pairChars, List.dropWhile_append_of_pos hname, List.dropWhile_cons_of_neg (by decide)]
  rw [decodePair, htake, hdrop, List.drop_one, List.tail_cons, decodeText_encodeChars,
    decodeText_encodeChars]

/-- Joined pairs are cut where they were joined. -/
theorem splitAll_joinPairs (p : String × String) (ps : List (String × String)) :
    splitAll '&' (joinPairs (p :: ps)) = (p :: ps).map pairChars := by
  induction ps generalizing p with
  | nil => exact splitAll_piece (ampersand_not_mem_pairChars p)
  | cons q ps ih =>
    have hjoin : joinPairs (p :: q :: ps) = pairChars p ++ '&' :: joinPairs (q :: ps) := rfl
    rw [hjoin, splitAll_append (ampersand_not_mem_pairChars p), ih]
    rfl

theorem pairChars_not_empty (p : String × String) : (pairChars p).isEmpty = false := by
  rw [List.isEmpty_eq_false_iff]
  exact List.append_ne_nil_of_right_ne_nil _ (List.cons_ne_nil _ _)

theorem decode_joinPairs (ps : List (String × String)) :
    decode (String.ofList (joinPairs ps)) = ps := by
  cases ps with
  | nil => rfl
  | cons p ps =>
    have hkept : ∀ piece ∈ (p :: ps).map pairChars, (!piece.isEmpty) = true := by
      intro piece hpiece
      obtain ⟨q, -, rfl⟩ := List.mem_map.1 hpiece
      rw [pairChars_not_empty]
      rfl
    have hread : decodePair ∘ pairChars = id := funext decodePair_pairChars
    rw [decode, String.toList_ofList, splitAll_joinPairs, List.filter_eq_self.2 hkept,
      List.map_map, hread, List.map_id]

/-- The parameters of a form in the order in which they are sent. -/
theorem decode_canonical (params : List (String × String)) :
    decode (canonical params) = sorted params := decode_joinPairs (sorted params)

theorem sorted_entries (params : Params) : sorted params.entries = params.entries := by
  apply List.mergeSort_of_pairwise
  apply params.ascending.imp
  intro a b hless
  exact decide_eq_true (String.not_lt.1 (String.lt_asymm hless))

theorem decode_ofParams (params : Params) : decode (ofParams params) = params.entries := by
  rw [ofParams, decode_canonical, sorted_entries]

end ExchangeClient.Form
