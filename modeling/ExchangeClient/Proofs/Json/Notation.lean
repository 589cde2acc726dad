import ExchangeClient.Json.Codec
import ExchangeClient.Proofs.Json.Numbers
import ExchangeClient.Proofs.Json.Strings
import ExchangeClient.Proofs.Text.Utf8

/-!
# The compact notation is read back

A value with whole numbers only, whose containers are not nested too deep, is
read from its compact notation as the document it is, with nothing behind it.
The reader works on tokens with a stack of open containers, so the statement
that carries the induction is about a value anywhere in a text: reading it puts
its document into the innermost container and goes on behind it.
-/

namespace ExchangeClient.Json

/-- Values with whole numbers of 64 bits, whose containers are nested at most so deep. -/
inductive Value.Fits : ℕ → Value → Prop
  | null {d} : Fits d .null
  | bool {d} (b : Bool) : Fits d (.bool b)
  | string {d} (s : String) : Fits d (.string s)
  | int {d} {i : Int} (word : IsWord i) : Fits d (.ofInt i)
  | array {d} {items : List Value} (fit : ∀ v ∈ items, Fits d v) : Fits (d + 1) (.array items)
  | object {d} {members : List (String × Value)} (fit : ∀ m ∈ members, Fits d m.2) :
    Fits (d + 1) (.object members)

/-- Reading these characters before the rest of a text takes the reader from one state to another.
The steps that are left suffice for the rest, as every token takes a character at least. -/
def Takes (cs : List Char) (rest : Input) (r r' : Reading) : Prop :=
  ∀ steps, (cs.map some ++ rest).length ≤ steps → ∃ steps', rest.length ≤ steps' ∧
    (tokensFrom steps (cs.map some ++ rest)).foldl Reading.step r =
      (tokensFrom steps' rest).foldl Reading.step r'

namespace Takes

variable {cs ds : List Char} {rest : Input} {r r' r'' : Reading}

theorem trans (first : Takes cs (ds.map some ++ rest) r r') (second : Takes ds rest r' r'') :
    Takes (cs ++ ds) rest r r'' := by
  intro steps enough
  rw [List.map_append, List.append_assoc] at enough ⊢
  obtain ⟨between, hbetween, hfirst⟩ := first steps enough
  obtain ⟨left, hleft, hsecond⟩ := second between hbetween
  exact ⟨left, hleft, hfirst.trans hsecond⟩

theorem token {c : Char} {t : Token} (visible : isSpace c = false)
    (scan : scanToken c (cs.map some ++ rest) = (t, rest)) :
    Takes (c :: cs) rest r (r.step t) := by
  intro steps enough
  rw [List.map_cons, List.cons_append] at enough ⊢
  rw [List.length_cons, List.length_append] at enough
  cases steps with
  | zero => omega
  | succ steps =>
    refine ⟨steps, by omega, ?_⟩
    rw [tokensFrom, visible, if_neg Bool.false_ne_true, scan]
    rfl

theorem sign {c : Char} {t : Token} (visible : isSpace c = false)
    (scan : ∀ rest, scanToken c rest = (t, rest)) : Takes [c] rest r (r.step t) :=
  token visible (scan _)

theorem comma : Takes [','] rest r (r.step .comma) := sign rfl fun _ => rfl

theorem colon : Takes [':'] rest r (r.step .colon) := sign rfl fun _ => rfl

/-- A text in quotation marks is one token. -/
theorem quoted (s : String) : Takes (Value.quoteChars s) rest r (r.step (.quoted (.string s))) := by
  have hscan : scanToken '"' ((s.toList.flatMap Value.escapeChar ++ ['"']).map some ++ rest) =
      (.quoted (.string s), rest) := by
    simpa using scanToken_quoted s rest
  exact token rfl hscan

end Takes

/-! ## Values within a text -/

theorem bounded_of_le {depth : ℕ} (room : depth ≤ maxDepth) (d : Document) :
    Reading.bounded depth d = d := if_neg (by omega)

/-- Where a value is due, be it the first item of an array or not. -/
def Place.Due (p : Place) : Prop := p = .value ∨ p = .item

section

variable {place : Place} {depth : ℕ} {fs : List Frame} {rest : Input}

theorem step_bare (due : place.Due) {l : Leaf} (passes : l.passing = none) :
    (Reading.within place depth fs).step (.bare l) = .place (.leaf l) depth fs := by
  rcases due with rfl | rfl <;> simp [Reading.step, Reading.takeValue, Reading.passes, passes]

theorem step_quoted (due : place.Due) (s : String) :
    (Reading.within place depth fs).step (.quoted (.string s)) =
      .place (.leaf (.string s)) depth fs := by
  rcases due with rfl | rfl <;> rfl

theorem step_openArray (due : place.Due) :
    (Reading.within place depth fs).step .openArray =
      .within .item (depth + 1) (.array [] :: fs) := by
  rcases due with rfl | rfl <;> rfl

theorem step_openObject (due : place.Due) :
    (Reading.within place depth fs).step .openObject =
      .within .member (depth + 1) (.object [] :: fs) := by
  rcases due with rfl | rfl <;> rfl

/-- What is to be shown of a value: it is read wherever one is due and containers may be opened for
it. -/
def Value.IsTaken (d : ℕ) (v : Value) : Prop :=
  ∀ ⦃place depth⦄ (fs : List Frame) ⦃rest⦄, Place.Due place → depth + d ≤ maxDepth → Closing rest →
    Takes v.chars rest (.within place depth fs) (.place v.toDocument depth fs)

variable (fs)

theorem takes_items {d : ℕ} {items : List Value} (taken : ∀ v ∈ items, v.IsTaken d)
    (present : items ≠ []) (due : place.Due) (room : depth + d ≤ maxDepth) (closing : Closing rest)
    (held : List Document) :
    Takes (Value.itemChars items) rest (.within place depth (.array held :: fs))
      (.within .next depth (.array ((Value.toItems items).reverse ++ held) :: fs)) := by
  induction items generalizing place held with
  | nil => exact absurd rfl present
  | cons v items ih =>
    have hfirst := taken v List.mem_cons_self
    cases items with
    | nil => exact hfirst (.array held :: fs) due room closing
    | cons w items =>
      have hcomma : Closing (((',' :: Value.itemChars (w :: items)).map some) ++ rest) :=
        closing_cons (Or.inl rfl) _
      have hrest := ih (fun u hu => taken u (List.mem_cons_of_mem v hu)) (List.cons_ne_nil _ _)
        (Or.inl rfl) (v.toDocument :: held)
      have hseparated : Takes (',' :: Value.itemChars (w :: items)) rest
          (.within .next depth (.array (v.toDocument :: held) :: fs)) _ :=
        .trans .comma hrest
      simpa [Value.itemChars, Value.toItems] using
        (hfirst (.array held :: fs) due room hcomma).trans hseparated

theorem takes_members {d : ℕ} {members : List (String × Value)}
    (taken : ∀ m ∈ members, m.2.IsTaken d) (present : members ≠ [])
    (due : place = .key ∨ place = .member) (room : depth + d ≤ maxDepth) (closing : Closing rest)
    (held : List (Key × Document)) :
    Takes (Value.memberChars members) rest (.within place depth (.object held :: fs))
      (.within .next depth (.object ((Value.toMembers members).reverse ++ held) :: fs)) := by
  induction members generalizing place held with
  | nil => exact absurd rfl present
  | cons m members ih =>
    obtain ⟨k, v⟩ := m
    have hkey : ∀ rest, Takes (Value.quoteChars k) rest (.within place depth (.object held :: fs))
        (.within .colon depth (.member held (.quoted (.string k)) :: fs)) := by
      intro rest
      rcases due with rfl | rfl <;> exact .quoted k
    have hcolon : ∀ rest, Takes [':'] rest
        (.within .colon depth (.member held (.quoted (.string k)) :: fs))
        (.within .value depth (.member held (.quoted (.string k)) :: fs)) := fun _ => .colon
    have hvalue : ∀ rest, Closing rest → Takes v.chars rest
        (.within .value depth (.member held (.quoted (.string k)) :: fs))
        (.within .next depth (.object ((.quoted (.string k), v.toDocument) :: held) :: fs)) := by
      intro rest closing
      exact taken (k, v) List.mem_cons_self _ (Or.inl rfl) room closing
    cases members with
    | nil => exact (hkey _).trans ((hcolon _).trans (hvalue _ closing))
    | cons m' members =>
      have hcomma : Closing (((',' :: Value.memberChars (m' :: members)).map some) ++ rest) :=
        closing_cons (Or.inl rfl) _
      have hrest := ih (fun u hu => taken u (List.mem_cons_of_mem _ hu)) (List.cons_ne_nil _ _)
        (Or.inl rfl) ((.quoted (.string k), v.toDocument) :: held)
      have hseparated : Takes (',' :: Value.memberChars (m' :: members)) rest
          (.within .next depth (.object ((.quoted (.string k), v.toDocument) :: held) :: fs)) _ :=
        .trans .comma hrest
      simpa [Value.memberChars, Value.toMembers] using
        (hkey _).trans ((hcolon _).trans ((hvalue _ hcomma).trans hseparated))

theorem takes_array {d : ℕ} {items : List Value} (taken : ∀ v ∈ items, v.IsTaken d) :
    (Value.array items).IsTaken (d + 1) := by
  intro place depth fs rest due room closing
  have hopen : Takes ['['] ((Value.itemChars items ++ [']']).map some ++ rest)
      (.within place depth fs) (.within .item (depth + 1) (.array [] :: fs)) := by
    rw [← step_openArray due]
    exact .sign rfl fun _ => rfl
  have hdocument : Reading.bounded (depth + 1) (.array (Value.toItems items) none) =
      (Value.array items).toDocument := bounded_of_le (by omega) _
  cases items with
  | nil =>
    have hclose : Takes [']'] rest (.within .item (depth + 1) (.array [] :: fs)) _ :=
      .sign rfl fun _ => rfl
    rw [← hdocument]
    exact hopen.trans hclose
  | cons v items =>
    have hclose : Takes [']'] rest (.within .next (depth + 1)
        (.array ((Value.toItems (v :: items)).reverse ++ []) :: fs)) _ := .sign rfl fun _ => rfl
    have hitems := takes_items fs taken (List.cons_ne_nil v items) (Or.inr rfl)
      (show depth + 1 + d ≤ maxDepth by omega) (closing_cons (Or.inr (Or.inl rfl)) rest) []
    rw [← hdocument]
    simpa [Value.chars, Reading.step, Reading.takeNext, Reading.close, Frame.close] using
      hopen.trans (hitems.trans hclose)

theorem takes_object {d : ℕ} {members : List (String × Value)}
    (taken : ∀ m ∈ members, m.2.IsTaken d) : (Value.object members).IsTaken (d + 1) := by
  intro place depth fs rest due room closing
  have hopen : Takes ['\x7b'] ((Value.memberChars members ++ ['\x7d']).map some ++ rest)
      (.within place depth fs) (.within .member (depth + 1) (.object [] :: fs)) := by
    rw [← step_openObject due]
    exact .sign rfl fun _ => rfl
  have hdocument : Reading.bounded (depth + 1) (.object (Value.toMembers members) none) =
      (Value.object members).toDocument := bounded_of_le (by omega) _
  cases members with
  | nil =>
    have hclose : Takes ['\x7d'] rest (.within .member (depth + 1) (.object [] :: fs)) _ :=
      .sign rfl fun _ => rfl
    rw [← hdocument]
    exact hopen.trans hclose
  | cons m members =>
    have hclose : Takes ['\x7d'] rest (.within .next (depth + 1)
        (.object ((Value.toMembers (m :: members)).reverse ++ []) :: fs)) _ :=
      .sign rfl fun _ => rfl
    have hmembers := takes_members fs taken (List.cons_ne_nil m members) (Or.inr rfl)
      (show depth + 1 + d ≤ maxDepth by omega) (closing_cons (Or.inr (Or.inr rfl)) rest) []
    rw [← hdocument]
    simpa [Value.chars, Reading.step, Reading.takeNext, Reading.close, Frame.close] using
      hopen.trans (hmembers.trans hclose)

/-- Values whose containers are not nested too deep are taken. -/
theorem Value.Fits.isTaken {d : ℕ} {v : Value} (fits : v.Fits d) : v.IsTaken d := by
  induction fits with
  | null =>
    intro place depth fs rest due room closing
    rw [Value.toDocument, ← step_bare due rfl]
    exact .token rfl rfl
  | bool b =>
    intro place depth fs rest due room closing
    rw [Value.toDocument, ← step_bare due rfl]
    cases b <;> exact .token rfl rfl
  | string s =>
    intro place depth fs rest due room closing
    rw [Value.toDocument, ← step_quoted due]
    exact .quoted s
  | @int _ i word =>
    intro place depth fs rest due room closing
    obtain ⟨c, cs, hdigits, hvisible, hscan⟩ := scanToken_int word closing
    have hchars : (Value.ofInt i).chars = c :: cs := by
      rw [Value.ofInt, Value.chars, Number.text, Digits.intText, String.toList_ofList, hdigits]
    rw [hchars, Value.ofInt, Value.toDocument, ← step_bare due rfl]
    exact .token hvisible hscan
  | array _ ih => exact takes_array ih
  | object _ ih => exact takes_object ih

end

/-! ## Whole texts -/

/-- A value that fits is the document of its compact notation, and nothing follows it. -/
theorem readInput_chars {v : Value} (fits : v.Fits maxDepth) :
    readInput (v.chars.map some) = ⟨v.toDocument, false⟩ := by
  have htaken : Takes v.chars [] (.within .value 0 []) (.done v.toDocument false) :=
    fits.isTaken [] (Or.inl rfl) (Nat.zero_add maxDepth).le closing_nil
  obtain ⟨steps, -, hread⟩ := htaken (v.chars.map some).length (by rw [List.append_nil])
  rw [List.append_nil, tokensFrom_nil] at hread
  rw [readInput, tokens, hread]
  rfl

theorem readText_text {v : Value} (fits : v.Fits maxDepth) :
    readText v.text = ⟨v.toDocument, false⟩ := by
  rw [readText, Value.text, String.toList_ofList, readInput_chars fits]

/-- The bytes of a value are read as its text is. -/
theorem readBytes_text {v : Value} (fits : v.Fits maxDepth) :
    readBytes (Text.utf8 v.text) = ⟨v.toDocument, false⟩ := by
  rw [readBytes, Text.units_utf8, Value.text, String.toList_ofList, readInput_chars fits]

namespace Codec

variable {α : Type} (c : Codec α)

theorem ofParsed_whole (d : Document) : c.ofParsed ⟨d, false⟩ = c.decode d := by
  rw [ofParsed]
  exact bind_pure _

/-- What is written for a value is read as its document is. -/
theorem readText_written {v : Value} (fits : v.Fits maxDepth) :
    c.readText v.text = c.decode v.toDocument := by
  rw [readText, readText_text fits, ofParsed_whole]

theorem readBytes_written {v : Value} (fits : v.Fits maxDepth) :
    c.readBytes (Text.utf8 v.text) = c.decode v.toDocument := by
  rw [readBytes, readBytes_text fits, ofParsed_whole]

end Codec
end ExchangeClient.Json
