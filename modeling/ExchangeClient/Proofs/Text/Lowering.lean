import ExchangeClient.Proofs.Text.Trimming
import ExchangeClient.Text.Lowercase

/-!
# Lower case, once and again

What a character becomes in lower case stays as it is from then on: no row of the
table leads to a character that has a row itself, and the two characters that depend
on their place are gone. Blank characters have no case, so they neither change nor
bear on what stands next to them, and it does not matter whether a text is trimmed
before it is put into lower case or afterwards.
-/

namespace ExchangeClient.Text

/-- The characters that lower case changes: the two that depend on their place and those of the
table. -/
def changingRows : List CaseRow := ⟨0x130, 0x130, 1, 0⟩ :: ⟨0x3a3, 0x3a3, 1, 0⟩ :: lowerRows

/-- A character that lower case leaves as it is, wherever it stands. -/
def Settled (c : Char) : Prop := ∀ r ∈ changingRows, r.covers c.toNat = false

/-- What a character becomes between those before it, the last of these first, and those after. -/
def lowered (before : List Char) (c : Char) (rest : List Char) : List Char :=
  if c = 'Σ' then (if meetsCased before && !meetsCased rest then ['ς'] else ['σ'])
  else if c = 'İ' then ['i', '\u0307']
  else if c.toNat < 128 then [c.toLower]
  else [lowerChar c]

theorem lowerFrom_cons (before : List Char) (c : Char) (rest : List Char) :
    lowerFrom before (c :: rest) = lowered before c rest ++ lowerFrom (c :: before) rest := rfl

/-! ## The table -/

namespace CaseRow

/-- The code point a row leads to from one of its own. -/
def image (r : CaseRow) (n : Nat) : Nat := (Int.ofNat n + r.shift).toNat

/-- Whether a row covers nothing that another one leads to. -/
def apart (r s : CaseRow) : Bool :=
  (r.image r.last).blt s.first || s.last.blt (r.image r.first) ||
    (r.step == s.step || r.first == r.last) && (r.image r.first - s.first) % s.step != 0

/-- Whether a row leads to characters only, and to none that are blank. -/
def leadsToVisible (r : CaseRow) : Bool :=
  Nat.ble 1 (r.image r.first) &&
    ((r.image r.last).blt 0xd800 || Nat.blt 0xdfff (r.image r.first)) &&
    (r.image r.last).blt 0x110000 &&
    blankRanges.all fun b => (r.image r.last).blt b.1 || b.2.blt (r.image r.first)

end CaseRow

theorem rows_apart : (lowerRows.all fun r => changingRows.all r.apart) = true := by decide +kernel

theorem rows_visible : lowerRows.all CaseRow.leadsToVisible = true := by decide +kernel

/-- Only the first row is about small code points. -/
theorem rows_after_small : (lowerRows.tail.all fun r => Nat.ble 128 r.first) = true := by
  decide +kernel

/-- The code points of a range. -/
def codesOf (b : Nat × Nat) : List Nat := List.range' b.1 (b.2 + 1 - b.1)

/-- Blank characters have no case. -/
theorem blanks_caseless : (blankRanges.all fun b => (codesOf b).all fun n =>
    !inRanges casedRanges n && changingRows.all fun r => !r.covers n) = true := by decide +kernel

namespace CaseRow

variable {r s : CaseRow} {n : Nat}

theorem covers_iff :
    r.covers n = true ↔ r.first ≤ n ∧ n ≤ r.last ∧ (n - r.first) % r.step = 0 := by
  simp only [covers, Bool.and_eq_true, decide_eq_true_eq, beq_iff_eq, and_assoc]

/-- A code point that a row covers is led as far from where its first one is led to. -/
theorem image_eq (positive : 1 ≤ r.image r.first) (least : r.first ≤ n) :
    r.image n = r.image r.first + (n - r.first) := by
  simp only [image, Int.ofNat_eq_natCast] at positive ⊢
  omega

/-- Where a row leads to, a row apart from it covers nothing. -/
theorem covers_image (apart : r.apart s = true) (positive : 1 ≤ r.image r.first)
    (covered : r.covers n = true) : s.covers (r.image n) = false := by
  obtain ⟨hleast, hmost, hstep⟩ := covers_iff.1 covered
  rw [← Bool.not_eq_true, covers_iff, image_eq positive hleast]
  rintro ⟨hfirst, hlast, hmod⟩
  rw [CaseRow.apart, Bool.or_eq_true, Bool.or_eq_true, Nat.blt_eq, Nat.blt_eq, Bool.and_eq_true,
    Bool.or_eq_true, beq_iff_eq, beq_iff_eq, bne_iff_ne,
    image_eq positive (hleast.trans hmost)] at apart
  rcases apart with (hbelow | habove) | ⟨halone, hother⟩
  · omega
  · omega
  · -- The step takes both rows along, or there is but one code point.
    have hmoved : r.image r.first + (n - r.first) - s.first =
        r.image r.first - s.first + (n - r.first) := by
      have hstart : s.first ≤ r.image r.first := by
        by_contra hless
        rw [Nat.sub_eq_zero_of_le (Nat.le_of_not_le hless), Nat.zero_mod] at hother
        exact hother rfl
      omega
    have hkept : (n - r.first) % s.step = 0 := by
      rcases halone with hsame | hsingle
      · rwa [← hsame]
      · rw [show n - r.first = 0 by omega, Nat.zero_mod]
    rw [hmoved, Nat.add_mod, hkept, Nat.add_zero, Nat.mod_mod] at hmod
    exact hother hmod

/-- A row that leads to visible characters leads from each of its code points to one. -/
theorem image_visible (visible : r.leadsToVisible = true) (covered : r.covers n = true) :
    (r.image n).isValidChar ∧ inRanges blankRanges (r.image n) = false := by
  obtain ⟨hleast, hmost, -⟩ := covers_iff.1 covered
  simp only [leadsToVisible, Bool.and_eq_true, Bool.or_eq_true, Nat.blt_eq, Nat.ble_eq,
    List.all_eq_true] at visible
  obtain ⟨⟨⟨hpositive, hchars⟩, hbound⟩, hblanks⟩ := visible
  have hfirst := image_eq hpositive hleast
  have hlast := image_eq hpositive (hleast.trans hmost)
  constructor
  · rw [Nat.isValidChar]
    omega
  · simp only [inRanges, List.any_eq_false, Bool.and_eq_true, decide_eq_true_eq, not_and, not_le]
    intro b hb
    have hapart := hblanks b hb
    omega

end CaseRow

/-! ## Characters -/

section

variable {c : Char}

theorem eq_of_covers {m : Nat} (covered : (⟨m, m, 1, 0⟩ : CaseRow).covers c.toNat = true) :
    c = Char.ofNat m := by
  obtain ⟨hleast, hmost, -⟩ := CaseRow.covers_iff.1 covered
  rw [← Char.ofNat_toNat c, Nat.le_antisymm hmost hleast]

theorem settled_iff :
    Settled c ↔ c ≠ 'İ' ∧ c ≠ 'Σ' ∧ ∀ r ∈ lowerRows, r.covers c.toNat = false := by
  simp only [Settled, changingRows, List.forall_mem_cons]
  constructor
  · rintro ⟨hdotted, hsigma, hfree⟩
    refine ⟨?_, ?_, hfree⟩
    · rintro rfl
      exact absurd hdotted (by decide)
    · rintro rfl
      exact absurd hsigma (by decide)
  · rintro ⟨hdotted, hsigma, hfree⟩
    refine ⟨Bool.eq_false_iff.2 ?_, Bool.eq_false_iff.2 ?_, hfree⟩
    · exact fun covered => hdotted (eq_of_covers covered)
    · exact fun covered => hsigma (eq_of_covers covered)

theorem toNat_ofNat_of_valid {n : Nat} (valid : n.isValidChar) : (Char.ofNat n).toNat = n := by
  rw [Char.ofNat, dif_pos valid]
  rfl

theorem lowerChar_cases (c : Char) :
    (lowerChar c = c ∧ ∀ r ∈ lowerRows, r.covers c.toNat = false) ∨
      ∃ r ∈ lowerRows, r.covers c.toNat = true ∧ lowerChar c = Char.ofNat (r.image c.toNat) := by
  rw [lowerChar]
  split
  · rename_i r hfound
    have hcovers := List.find?_some hfound
    exact Or.inr ⟨r, List.mem_of_find?_eq_some hfound, hcovers, rfl⟩
  · rename_i hnone
    exact Or.inl ⟨rfl, fun r hr => Bool.eq_false_iff.2 (List.find?_eq_none.1 hnone r hr)⟩

theorem lowerChar_settled (dotted : c ≠ 'İ') (sigma : c ≠ 'Σ') : Settled (lowerChar c) := by
  rcases lowerChar_cases c with ⟨hsame, hfree⟩ | ⟨r, hr, hcovers, hled⟩
  · rw [hsame]
    exact settled_iff.2 ⟨dotted, sigma, hfree⟩
  · have hvisible := List.all_eq_true.1 rows_visible r hr
    obtain ⟨hchar, -⟩ := CaseRow.image_visible hvisible hcovers
    have hpositive : 1 ≤ r.image r.first := by
      simp only [CaseRow.leadsToVisible, Bool.and_eq_true, Nat.ble_eq] at hvisible
      exact hvisible.1.1.1
    intro s hs
    rw [hled, toNat_ofNat_of_valid hchar]
    exact CaseRow.covers_image (List.all_eq_true.1 (List.all_eq_true.1 rows_apart r hr) s hs)
      hpositive hcovers

theorem lowerChar_visible (visible : isBlank c = false) : isBlank (lowerChar c) = false := by
  rcases lowerChar_cases c with ⟨hsame, -⟩ | ⟨r, hr, hcovers, hled⟩
  · rwa [hsame]
  · obtain ⟨hchar, hblank⟩ := CaseRow.image_visible (List.all_eq_true.1 rows_visible r hr) hcovers
    rwa [isBlank, hled, toNat_ofNat_of_valid hchar]

theorem lowerChar_of_settled (settled : Settled c) : lowerChar c = c := by
  obtain ⟨-, -, hfree⟩ := settled_iff.1 settled
  rcases lowerChar_cases c with ⟨hsame, -⟩ | ⟨r, hr, hcovers, -⟩
  · exact hsame
  · exact absurd hcovers (Bool.eq_false_iff.1 (hfree r hr))

/-- Small characters are put into lower case by the first row. -/
theorem lowerChar_small (small : c.toNat < 128) : lowerChar c = c.toLower := by
  have hrows : lowerRows = ⟨0x41, 0x5a, 1, 32⟩ :: lowerRows.tail := rfl
  have hlater : lowerRows.tail.find? (CaseRow.covers · c.toNat) = none := by
    refine List.find?_eq_none.2 fun r hr covered => ?_
    have hlarge := List.all_eq_true.1 rows_after_small r hr
    rw [Nat.ble_eq] at hlarge
    exact absurd (CaseRow.covers_iff.1 covered).1 (by omega)
  have hupper : (⟨0x41, 0x5a, 1, 32⟩ : CaseRow).covers c.toNat = true ↔
      c.val ≥ 'A'.val ∧ c.val ≤ 'Z'.val := by
    simp only [CaseRow.covers_iff, Nat.mod_one, and_true]
    exact Iff.rfl
  rw [lowerChar, hrows, List.find?_cons, hlater]
  by_cases hcase : c.val ≥ 'A'.val ∧ c.val ≤ 'Z'.val
  · have hbound : c.toNat ≤ 0x5a := hcase.2
    have hsum : (c.val + 32).toNat = c.toNat + 32 := by
      rw [UInt32.toNat_add]
      exact Nat.mod_eq_of_lt (by omega : c.toNat + 32 < 2 ^ 32)
    have hlower : c.toLower = _ := dif_pos hcase
    rw [hupper.2 hcase, hlower]
    refine Char.ext (UInt32.toNat_inj.1 ?_)
    exact (toNat_ofNat_of_valid (Or.inl (by omega : c.toNat + 32 < 0xd800))).trans hsum.symm
  · have hlower : c.toLower = c := dif_neg hcase
    rw [Bool.eq_false_iff.2 (mt hupper.1 hcase), hlower]

end

/-! ## Texts -/

section

variable {before cs rest : List Char} {c : Char}

theorem lowered_eq (before : List Char) (c : Char) (rest : List Char) :
    lowered before c rest =
      if c = 'Σ' then (if meetsCased before && !meetsCased rest then ['ς'] else ['σ'])
      else if c = 'İ' then ['i', '\u0307'] else [lowerChar c] := by
  rw [lowered]
  by_cases hsmall : c.toNat < 128
  · rw [if_pos hsmall, lowerChar_small hsmall]
  · rw [if_neg hsmall]

theorem lowered_of_settled (settled : Settled c) : lowered before c rest = [c] := by
  obtain ⟨hdotted, hsigma, -⟩ := settled_iff.1 settled
  rw [lowered_eq, if_neg hsigma, if_neg hdotted, lowerChar_of_settled settled]

/-- What the characters become that depend on their place. -/
theorem placed_free : (['ς', 'σ', 'i', '\u0307'].all fun x =>
    !isBlank x && changingRows.all fun r => !r.covers x.toNat) = true := by decide +kernel

theorem placed_settled : ∀ x ∈ ['ς', 'σ', 'i', '\u0307'], Settled x ∧ isBlank x = false := by
  intro x hx
  have hfree := List.all_eq_true.1 placed_free x hx
  simp only [Bool.and_eq_true, Bool.not_eq_true', List.all_eq_true] at hfree
  exact ⟨hfree.2, hfree.1⟩

theorem mem_lowered_cases {x : Char} (mem : x ∈ lowered before c rest) :
    x ∈ ['ς', 'σ', 'i', '\u0307'] ∨ c ≠ 'İ' ∧ c ≠ 'Σ' ∧ x = lowerChar c := by
  rw [lowered_eq] at mem
  split at mem
  · split at mem
    · exact Or.inl (List.mem_of_mem_take (i := 1) mem)
    · exact Or.inl (List.mem_cons_of_mem 'ς' (List.mem_of_mem_take (i := 1) mem))
  · rename_i hsigma
    split at mem
    · exact Or.inl (List.mem_of_mem_drop (i := 2) mem)
    · rename_i hdotted
      exact Or.inr ⟨hdotted, hsigma, List.mem_singleton.1 mem⟩

theorem settled_of_mem_lowered {x : Char} (mem : x ∈ lowered before c rest) : Settled x := by
  rcases mem_lowered_cases mem with hplaced | ⟨hdotted, hsigma, rfl⟩
  · exact (placed_settled x hplaced).1
  · exact lowerChar_settled hdotted hsigma

/-- Lower case leaves alone what it would not change in any place. -/
theorem lowerFrom_of_settled (settled : ∀ c ∈ cs, Settled c) : lowerFrom before cs = cs := by
  induction cs generalizing before with
  | nil => rfl
  | cons c cs ih =>
    obtain ⟨hc, hcs⟩ := List.forall_mem_cons.1 settled
    rw [lowerFrom_cons, lowered_of_settled hc, ih hcs, List.singleton_append]

theorem settled_of_mem_lowerFrom {x : Char} (mem : x ∈ lowerFrom before cs) : Settled x := by
  induction cs generalizing before with
  | nil => cases mem
  | cons c cs ih =>
    rw [lowerFrom_cons, List.mem_append] at mem
    rcases mem with hfirst | hlater
    · exact settled_of_mem_lowered hfirst
    · exact ih hlater

@[simp] theorem lowerChars_lowerChars (cs : List Char) :
    lowerChars (lowerChars cs) = lowerChars cs :=
  lowerFrom_of_settled fun _ => settled_of_mem_lowerFrom

@[simp] theorem toList_lower (s : String) : (lower s).toList = lowerChars s.toList :=
  String.toList_ofList

theorem lower_of_settled {s : String} (settled : ∀ c ∈ s.toList, Settled c) : lower s = s := by
  rw [lower, lowerChars, lowerFrom_of_settled settled, String.ofList_toList]

/-- A text in lower case is in lower case already. -/
@[simp] theorem lower_lower (s : String) : lower (lower s) = lower s :=
  lower_of_settled fun _ hc => settled_of_mem_lowerFrom (toList_lower s ▸ hc)

/-! ## Trimming -/

theorem lowered_ne_nil (before : List Char) (c : Char) (rest : List Char) :
    lowered before c rest ≠ [] := by
  rw [lowered_eq]
  split
  · split
    · exact List.cons_ne_nil _ _
    · exact List.cons_ne_nil _ _
  · split
    · exact List.cons_ne_nil _ _
    · exact List.cons_ne_nil _ _

theorem lowered_visible (visible : isBlank c = false) {x : Char}
    (mem : x ∈ lowered before c rest) : isBlank x = false := by
  rcases mem_lowered_cases mem with hplaced | ⟨-, -, rfl⟩
  · exact (placed_settled x hplaced).2
  · exact lowerChar_visible visible

theorem isBlank_caseless (blank : isBlank c = true) : isCased c = false ∧ Settled c := by
  obtain ⟨b, hb, hbounds⟩ := List.any_eq_true.1 blank
  rw [Bool.and_eq_true, decide_eq_true_eq, decide_eq_true_eq] at hbounds
  have hcode : c.toNat ∈ codesOf b := List.mem_range'_1.2 (by omega)
  have hcaseless := List.all_eq_true.1 (List.all_eq_true.1 blanks_caseless b hb) _ hcode
  simpa [isCased, Settled] using hcaseless

/-- Blank characters at the far end have no case, and what has none does not count. -/
theorem meetsCased_append {blanks : List Char} (blank : ∀ c ∈ blanks, isBlank c = true)
    (cs : List Char) : meetsCased (cs ++ blanks) = meetsCased cs := by
  induction cs with
  | nil =>
    have hnone : meetsCased blanks = false := by
      rw [meetsCased]
      split
      · rfl
      · rename_i c rest hdrop
        have hmem : c ∈ blanks.dropWhile isCaseIgnorable := hdrop ▸ List.mem_cons_self
        exact (isBlank_caseless (blank c ((List.dropWhile_sublist _).subset hmem))).1
    exact hnone
  | cons c cs ih =>
    rw [List.cons_append, meetsCased, meetsCased]
    by_cases hignored : isCaseIgnorable c = true
    · rw [List.dropWhile_cons_of_pos hignored, List.dropWhile_cons_of_pos hignored]
      exact ih
    · rw [List.dropWhile_cons_of_neg hignored, List.dropWhile_cons_of_neg hignored]

theorem lowerFrom_after {blanks : List Char} (blank : ∀ c ∈ blanks, isBlank c = true)
    (before cs : List Char) : lowerFrom (before ++ blanks) cs = lowerFrom before cs := by
  induction cs generalizing before with
  | nil => rfl
  | cons c cs ih =>
    rw [lowerFrom_cons, lowerFrom_cons, lowered, lowered, meetsCased_append blank,
      ← List.cons_append, ih]

theorem lowerFrom_append {blanks : List Char} (blank : ∀ c ∈ blanks, isBlank c = true)
    (before cs : List Char) : lowerFrom before (cs ++ blanks) = lowerFrom before cs ++ blanks := by
  induction cs generalizing before with
  | nil => exact lowerFrom_of_settled fun c hc => (isBlank_caseless (blank c hc)).2
  | cons c cs ih =>
    rw [List.cons_append, lowerFrom_cons, lowerFrom_cons, lowered, lowered, meetsCased_append blank,
      ih, List.append_assoc]

theorem lowerChars_between {front back : List Char} (before : ∀ c ∈ front, isBlank c = true)
    (after : ∀ c ∈ back, isBlank c = true) (cs : List Char) :
    lowerChars (front ++ cs ++ back) = front ++ lowerChars cs ++ back := by
  -- The characters in front come to stand behind those that are before the rest.
  have hfront : ∀ seen : List Char, (∀ c ∈ seen, isBlank c = true) →
      lowerFrom seen (front ++ cs) = front ++ lowerChars cs := by
    induction front with
    | nil => exact fun seen hseen => lowerFrom_after hseen [] cs
    | cons c front ih =>
      intro seen hseen
      obtain ⟨hc, hrest⟩ := List.forall_mem_cons.1 before
      rw [List.cons_append, lowerFrom_cons, lowered_of_settled (isBlank_caseless hc).2,
        ih hrest (c :: seen) (List.forall_mem_cons.2 ⟨hc, hseen⟩)]
      rfl
  rw [lowerChars, lowerFrom_append after, hfront [] nofun]

theorem getLast?_lowerFrom (visible : ∀ c, cs.getLast? = some c → isBlank c = false) {x : Char}
    (last : (lowerFrom before cs).getLast? = some x) : isBlank x = false := by
  induction cs generalizing before with
  | nil => cases last
  | cons c cs ih =>
    rw [lowerFrom_cons] at last
    cases cs with
    | nil =>
      rw [lowerFrom, List.append_nil] at last
      exact lowered_visible (visible c rfl) (List.mem_of_getLast? last)
    | cons d cs =>
      have hsome : lowerFrom (c :: before) (d :: cs) ≠ [] := by
        rw [lowerFrom_cons]
        exact List.append_ne_nil_of_left_ne_nil (lowered_ne_nil _ _ _) _
      rw [List.getLast?_append_of_ne_nil _ hsome] at last
      exact ih visible last

theorem Trimmed.lowerChars (trimmed : Trimmed cs) : Trimmed (lowerChars cs) := by
  constructor
  · intro x hx
    cases cs with
    | nil => cases hx
    | cons c cs =>
      rw [Text.lowerChars, lowerFrom_cons,
        List.head?_append_of_ne_nil _ (lowered_ne_nil _ _ _)] at hx
      exact lowered_visible (trimmed.first c rfl) (List.mem_of_head? hx)
  · exact fun x hx => getLast?_lowerFrom trimmed.last hx

/-- It does not matter whether a text is trimmed before or after it is put into lower case. -/
theorem trimChars_lowerChars (cs : List Char) :
    trimChars (lowerChars cs) = lowerChars (trimChars cs) := by
  obtain ⟨front, back, hcs, hfront, hback⟩ := exists_blank_ends cs
  conv_lhs => rw [hcs, lowerChars_between hfront hback]
  exact trimChars_between hfront hback (trimmed_trimChars cs).lowerChars

end

end ExchangeClient.Text
