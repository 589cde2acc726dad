import ExchangeClient.Proofs.Channel.Mailboxes
import Mathlib.Data.List.Nodup

/-!
# The verdict on each caller

While fewer requests are made than there are numbers, a run keeps the table
sound, and a caller that waits is told by the first signal that has a verdict on
it and by nothing else.
-/

namespace ExchangeClient.Channel.RequestTable

/-- The table after `k` requests, counting from `start`. -/
structure Sound (start : UInt64) (k : Nat) (t : RequestTable) : Prop where
  next : t.takeId.1 = numberAt start k
  taken : ∀ id ∈ t.pending.map (·.1), ∃ j < k, id = numberAt start j
  numbers_nodup : (t.pending.map (·.1)).Nodup
  mailboxes_nodup : (t.pending.map (·.2)).Nodup
  waiting_iff : ∀ m, m ∈ t.pending.map (·.2) ↔ t.mailboxes[m]? = some .waiting

theorem starting_sound (start : UInt64) : Sound start 0 (starting start) where
  next := takeId_starting start
  taken := by simp [starting]
  numbers_nodup := List.nodup_nil
  mailboxes_nodup := List.nodup_nil
  waiting_iff := by simp [starting]

variable {start : UInt64} {k : Nat} {t : RequestTable} {id : UInt64} {mailbox : Nat}

/-- The next number is not pending. -/
theorem Sound.fresh (sound : Sound start k t) (enough : k < numberCount) :
    t.takeId.1 ∉ t.pending.map (·.1) := by
  intro old
  obtain ⟨j, hj, heq⟩ := sound.taken _ old
  have same : k = j := numberAt_inj enough (by omega) (sound.next.symm.trans heq)
  omega

theorem Sound.same_mailbox (sound : Sound start k t) {m : Nat} (h : (id, mailbox) ∈ t.pending)
    (h' : (id, m) ∈ t.pending) : m = mailbox :=
  congrArg Prod.snd (List.inj_on_of_nodup_map sound.numbers_nodup h' h rfl)

theorem Sound.same_number (sound : Sound start k t) {i : UInt64} (h : (id, mailbox) ∈ t.pending)
    (h' : (i, mailbox) ∈ t.pending) : i = id :=
  congrArg Prod.fst (List.inj_on_of_nodup_map sound.mailboxes_nodup h' h rfl)

theorem Sound.waits (sound : Sound start k t) (h : (id, mailbox) ∈ t.pending) :
    t.mailboxes[mailbox]? = some .waiting :=
  (sound.waiting_iff mailbox).mp (List.mem_map_of_mem h)

/-- Taking an entry out and filling its mailbox, as replies and time limits do. -/
theorem Sound.settle (sound : Sound start k t) (h : (id, mailbox) ∈ t.pending) {x : Mailbox}
    (told : x ≠ .waiting) : Sound start k ((t.remove id).deliver mailbox x) := by
  have kept : ((t.remove id).deliver mailbox x).pending.Sublist t.pending := by
    rw [deliver_pending]
    exact List.filter_sublist
  refine ⟨?_, ?_, ?_, ?_, ?_⟩
  · rw [← sound.next, takeId, takeId, deliver_counter]
    rfl
  · intro i hi
    exact sound.taken i ((kept.map _).subset hi)
  · exact sound.numbers_nodup.sublist (kept.map _)
  · exact sound.mailboxes_nodup.sublist (kept.map _)
  · intro m
    rw [deliver_mailbox, deliver_pending, remove_mailboxes]
    by_cases hm : m = mailbox
    · subst hm
      rw [if_pos ⟨rfl, sound.waits h⟩]
      refine ⟨fun left => ?_, fun heq => absurd (Option.some.inj heq) told⟩
      obtain ⟨⟨i, n⟩, he, rfl⟩ := List.mem_map.mp left
      obtain ⟨old, other⟩ := mem_remove.mp he
      exact absurd (sound.same_number h old) other
    · rw [if_neg fun hb => hm hb.1, ← sound.waiting_iff m]
      refine ⟨fun left => ((List.filter_sublist).map _).subset left, fun hp => ?_⟩
      obtain ⟨⟨i, n⟩, he, rfl⟩ := List.mem_map.mp hp
      refine List.mem_map.mpr ⟨(i, n), mem_remove.mpr ⟨he, ?_⟩, rfl⟩
      rintro rfl
      exact hm (sound.same_mailbox h he)

/-- A request on a sound table opens a new mailbox under a new number. -/
theorem step_request (fresh : t.takeId.1 ∉ t.pending.map (·.1)) :
    t.step .request = ⟨t.takeId.2.counter, t.pending ++ [(t.takeId.1, t.mailboxes.length)],
      t.mailboxes ++ [.waiting]⟩ := by
  have absent : t.takeId.2.find? t.takeId.1 = none := (find?_none_iff _ _).mpr fresh
  simp only [step, register, cancel, absent]
  rfl

theorem Sound.step_request (sound : Sound start k t) (enough : k < numberCount) :
    Sound start (k + 1) (t.step .request) := by
  have fresh := sound.fresh enough
  have inside : ∀ m ∈ t.pending.map (·.2), m < t.mailboxes.length := fun m hm =>
    (List.getElem?_eq_some_iff.mp ((sound.waiting_iff m).mp hm)).1
  rw [RequestTable.step_request fresh]
  refine ⟨takeId_next sound.next, ?_, ?_, ?_, ?_⟩
  · intro i hi
    rw [List.map_append, List.mem_append] at hi
    rcases hi with old | new
    · obtain ⟨j, hj, heq⟩ := sound.taken i old
      exact ⟨j, by omega, heq⟩
    · exact ⟨k, by omega, by simpa [sound.next] using new⟩
  · rw [List.map_append]
    exact sound.numbers_nodup.append (List.nodup_singleton _) (by simpa using fresh)
  · rw [List.map_append]
    refine sound.mailboxes_nodup.append (List.nodup_singleton _) ?_
    intro m hm hlast
    have := inside m hm
    simp only [List.map_cons, List.map_nil, List.mem_singleton] at hlast
    omega
  · intro m
    rw [List.map_append, List.mem_append, List.getElem?_append]
    by_cases hm : m < t.mailboxes.length
    · rw [if_pos hm, ← sound.waiting_iff m]
      simp only [List.map_cons, List.map_nil, List.mem_singleton]
      exact ⟨fun h => h.resolve_right (by omega), Or.inl⟩
    · rw [if_neg hm]
      have old : m ∉ t.pending.map (·.2) := fun h => hm (inside m h)
      by_cases hl : m = t.mailboxes.length
      · simp [hl]
      · simp [old, hl, List.getElem?_singleton]
        omega

theorem verdict_told {s : Signal} {x : Mailbox} (h : s.verdict? id mailbox = some x) :
    x ≠ .waiting := by
  cases s with
  | request => cases h
  | refuse => cases h
  | hear text =>
    obtain ⟨frame, _, rfl⟩ := Option.map_eq_some_iff.mp h
    simp
  | expire m =>
    obtain ⟨_, hx⟩ := Option.ite_none_right_eq_some.mp h
    cases hx
    simp
  | fail => simp [← Option.some.inj h]

/-- What one signal does to a sound table. -/
inductive Effect (t : RequestTable) (s : Signal) : RequestTable → Prop where
  | opened : s = .request → Effect t s ⟨t.takeId.2.counter,
      t.pending ++ [(t.takeId.1, t.mailboxes.length)], t.mailboxes ++ [.waiting]⟩
  | refused : s = .refuse → Effect t s { t with mailboxes := t.mailboxes ++ [.failed] }
  | settled (id : UInt64) (mailbox : Nat) (x : Mailbox) : (id, mailbox) ∈ t.pending →
      s.verdict? id mailbox = some x →
      (∀ e ∈ t.pending, e.1 ≠ id → s.verdict? e.1 e.2 = none) →
      Effect t s ((t.remove id).deliver mailbox x)
  | failed : s = .fail → Effect t s t.failAll
  | idle : s.isRequest = false → (∀ e ∈ t.pending, s.verdict? e.1 e.2 = none) → Effect t s t

theorem Sound.number_ne_broadcast (sound : Sound start k t) {e : UInt64 × Nat}
    (h : e ∈ t.pending) : e.1 ≠ ReplyFrame.broadcastId := by
  obtain ⟨j, _, heq⟩ := sound.taken e.1 (List.mem_map_of_mem h)
  rw [heq]
  exact numberAt_ne_broadcast start j

theorem Sound.effect_hear (sound : Sound start k t) (text : String) :
    Effect t (.hear text) (t.step (.hear text)) := by
  cases hf : ReplyFrame.ofText? text with
  | none =>
    have idle : t.step (.hear text) = t := by simp only [step, hf]
    rw [idle]
    exact .idle rfl fun e _ => by simp [Signal.verdict?, hf]
  | some frame =>
    have quiet : ∀ e ∈ t.pending, frame.id ≠ e.1 → (Signal.hear text).verdict? e.1 e.2 = none :=
      fun e _ hne => by simp [Signal.verdict?, hf, Option.filter, hne]
    by_cases hb : frame.isBroadcast
    · have idle : t.step (.hear text) = t := by simp only [step, hf, if_pos hb]
      have zero : frame.id = ReplyFrame.broadcastId := by simpa [ReplyFrame.isBroadcast] using hb
      rw [idle]
      exact .idle rfl fun e he => quiet e he (zero ▸ (sound.number_ne_broadcast he).symm)
    · have handed : t.step (.hear text) = (t.resolve frame).2 := by
        simp only [step, hf, if_neg hb]
      rw [handed]
      cases hm : t.find? frame.id with
      | none =>
        have idle : (t.resolve frame).2 = t := by simp only [resolve, hm]
        rw [idle]
        refine .idle rfl fun e he => quiet e he ?_
        rintro heq
        exact (find?_none_iff t frame.id).mp hm (heq ▸ List.mem_map_of_mem he)
      | some mailbox =>
        have told : (t.resolve frame).2 =
            (t.remove frame.id).deliver mailbox (.answered frame) := by
          simp only [resolve, hm]
        rw [told]
        exact .settled frame.id mailbox _ (mem_of_find? hm) (by simp [Signal.verdict?, hf])
          fun e he hne => quiet e he hne.symm

theorem Sound.effect_expire (sound : Sound start k t) (m : Nat) :
    Effect t (.expire m) (t.step (.expire m)) := by
  have quiet : ∀ e ∈ t.pending, m ≠ e.2 → (Signal.expire m).verdict? e.1 e.2 = none :=
    fun e _ hne => if_neg hne
  cases hi : t.idOf? m with
  | none =>
    have idle : t.step (.expire m) = t := by simp only [step, expire, hi]
    rw [idle]
    refine .idle rfl fun e he => quiet e he ?_
    rintro rfl
    exact (idOf?_none_iff t e.2).mp hi (List.mem_map_of_mem he)
  | some id =>
    have pending := mem_of_idOf? hi
    have given : t.step (.expire m) = (t.remove id).deliver m .discarded := by
      simp only [step, expire, hi]
    rw [given]
    refine .settled id m _ pending (if_pos rfl) fun e he hne => quiet e he ?_
    rintro rfl
    exact hne (sound.same_number pending he)

/-- Everything that a signal can do to a sound table. -/
theorem Sound.effect (sound : Sound start k t) {s : Signal}
    (enough : s.isRequest = true → k < numberCount) : Effect t s (t.step s) := by
  cases s with
  | request =>
    rw [RequestTable.step_request (sound.fresh (enough rfl))]
    exact .opened rfl
  | refuse => exact .refused rfl
  | hear text => exact sound.effect_hear text
  | expire m => exact sound.effect_expire m
  | fail => exact .failed rfl

theorem takeId_congr {u : RequestTable} (h : u.counter = t.counter) : u.takeId.1 = t.takeId.1 := by
  rw [takeId, takeId, h]

theorem Sound.refuse (sound : Sound start k t) :
    Sound start k { t with mailboxes := t.mailboxes ++ [.failed] } := by
  refine ⟨sound.next, sound.taken, sound.numbers_nodup, sound.mailboxes_nodup, fun m => ?_⟩
  rw [sound.waiting_iff m, List.getElem?_append]
  by_cases hm : m < t.mailboxes.length
  · rw [if_pos hm]
  · rw [if_neg hm, List.getElem?_eq_none (by omega), List.getElem?_singleton]
    split <;> simp

theorem Sound.failAll (sound : Sound start k t) : Sound start k t.failAll := by
  refine ⟨?_, by simp, by simp, by simp, fun m => ?_⟩
  · rw [← sound.next]
    exact takeId_congr (failAll_counter t)
  · rw [failAll_pending, failAll_mailbox]
    by_cases hw : t.mailboxes[m]? = some .waiting
    · rw [if_pos ⟨(sound.waiting_iff m).mpr hw, hw⟩]
      simp
    · rw [if_neg fun h => hw h.2]
      simp [hw]

/-- One signal keeps a table sound and counts the request it may be. -/
theorem Sound.step (sound : Sound start k t) {s : Signal}
    (enough : s.isRequest = true → k < numberCount) :
    Sound start (k + if s.isRequest then 1 else 0) (t.step s) := by
  have effect := sound.effect enough
  generalize hu : t.step s = u at effect
  cases effect with
  | opened hs => subst hs; rw [← hu]; exact sound.step_request (enough rfl)
  | refused hs => subst hs; exact sound.refuse
  | settled id m x pending told _ =>
    rw [if_neg fun hs => by cases s <;> cases hs; cases told]
    exact sound.settle pending (verdict_told told)
  | failed hs => subst hs; exact sound.failAll
  | idle hs _ => rw [if_neg fun h => by rw [hs] at h; cases h]; exact sound

theorem Sound.run (sound : Sound start k t) (signals : List Signal)
    (enough : k + requests signals ≤ numberCount) :
    Sound start (k + requests signals) (t.run signals) := by
  induction signals generalizing k t with
  | nil => exact sound
  | cons s rest ih =>
    rw [requests_cons] at enough ⊢
    have first := sound.step (s := s) fun hs => by rw [if_pos hs] at enough; omega
    have later := ih first (by omega)
    rw [run_cons]
    have count : k + (if s.isRequest = true then 1 else 0) + requests rest =
        k + (requests rest + if s.isRequest = true then 1 else 0) := by omega
    exact count ▸ later

/-! ## What callers find -/

theorem remove_deliver_settled {found : Mailbox} (settled : t.mailboxes[mailbox]? = some found)
    (still : found ≠ .waiting) (i : UInt64) (b : Nat) (x : Mailbox) :
    ((t.remove i).deliver b x).mailboxes[mailbox]? = some found := by
  have removed : (t.remove i).mailboxes[mailbox]? = some found := settled
  exact deliver_settled removed still b x

/-- A caller that was told something is told nothing else. -/
theorem step_settled {found : Mailbox} (settled : t.mailboxes[mailbox]? = some found)
    (still : found ≠ .waiting) (s : Signal) : (t.step s).mailboxes[mailbox]? = some found := by
  have inside := (List.getElem?_eq_some_iff.mp settled).1
  have cancelled : ∀ (u : RequestTable) (i : UInt64), u.mailboxes[mailbox]? = some found →
      (u.cancel i).mailboxes[mailbox]? = some found := by
    intro u i hu
    simp only [cancel]
    split
    · exact remove_deliver_settled hu still i _ _
    · exact hu
  cases s with
  | request =>
    have hc := cancelled t.takeId.2 t.takeId.1 settled
    exact (List.getElem?_append_left (List.getElem?_eq_some_iff.mp hc).1).trans hc
  | refuse => exact (List.getElem?_append_left inside).trans settled
  | hear text =>
    simp only [step]
    split
    · split
      · exact settled
      · simp only [resolve]
        split
        · exact settled
        · exact remove_deliver_settled settled still _ _ _
    · exact settled
  | expire m =>
    simp only [step, expire]
    split
    · exact remove_deliver_settled settled still _ _ _
    · exact settled
  | fail =>
    simp only [step, failAll_mailbox]
    rw [if_neg fun h => still (Option.some.inj (settled.symm.trans h.2))]
    exact settled

theorem run_settled {found : Mailbox} (settled : t.mailboxes[mailbox]? = some found)
    (still : found ≠ .waiting) (signals : List Signal) :
    (t.run signals).mailboxes[mailbox]? = some found := by
  induction signals generalizing t with
  | nil => exact settled
  | cons s rest ih => exact ih (step_settled settled still s)

/-- A signal without a verdict on a waiting caller leaves it waiting. -/
theorem Sound.step_quiet (sound : Sound start k t) {s : Signal}
    (enough : s.isRequest = true → k < numberCount) (h : (id, mailbox) ∈ t.pending)
    (quiet : s.verdict? id mailbox = none) : (id, mailbox) ∈ (t.step s).pending := by
  have effect := sound.effect enough
  generalize t.step s = u at effect
  cases effect with
  | opened _ => exact List.mem_append_left _ h
  | refused _ => exact h
  | settled i m x pending told _ =>
    rw [deliver_pending]
    refine mem_remove.mpr ⟨h, ?_⟩
    rintro rfl
    rw [sound.same_mailbox h pending, quiet] at told
    cases told
  | failed hs => subst hs; cases quiet
  | idle _ _ => exact h

/-- A signal with a verdict on a waiting caller tells it and frees its number. -/
theorem Sound.step_verdict (sound : Sound start k t) {s : Signal}
    (enough : s.isRequest = true → k < numberCount) (h : (id, mailbox) ∈ t.pending)
    {x : Mailbox} (told : s.verdict? id mailbox = some x) :
    (t.step s).mailboxes[mailbox]? = some x ∧ id ∉ (t.step s).pending.map (·.1) := by
  have effect := sound.effect enough
  generalize t.step s = u at effect
  cases effect with
  | opened hs => subst hs; cases told
  | refused hs => subst hs; cases told
  | settled i m y pending told' others =>
    by_cases hi : id = i
    · subst hi
      have hm := sound.same_mailbox h pending
      subst hm
      constructor
      · rw [deliver_mailbox, remove_mailboxes, if_pos ⟨rfl, sound.waits h⟩]
        exact told'.symm.trans told
      · rw [deliver_pending]
        intro left
        obtain ⟨e, he, heq⟩ := List.mem_map.mp left
        exact (mem_remove.mp he).2 heq
    · rw [others (id, mailbox) h hi] at told
      cases told
  | failed hs =>
    subst hs
    refine ⟨?_, by simp⟩
    rw [failAll_mailbox, if_pos ⟨List.mem_map_of_mem h, sound.waits h⟩]
    exact told
  | idle _ quiet => rw [quiet (id, mailbox) h] at told; cases told

/-- A number that was handed out and is not pending is not pending again. -/
theorem Sound.run_absent (sound : Sound start k t) (signals : List Signal)
    (enough : k + requests signals ≤ numberCount) {j : Nat} (hj : j < k)
    (absent : numberAt start j ∉ t.pending.map (·.1)) :
    numberAt start j ∉ (t.run signals).pending.map (·.1) := by
  induction signals generalizing k t with
  | nil => exact absent
  | cons s rest ih =>
    rw [requests_cons] at enough
    have few : s.isRequest = true → k < numberCount := fun hs => by
      rw [if_pos hs] at enough
      omega
    refine ih (sound.step few) (by omega) (by omega) ?_
    have effect := sound.effect few
    generalize t.step s = u at effect
    cases effect with
    | opened hs =>
      subst hs
      rw [List.map_append, List.mem_append]
      rintro (old | new)
      · exact absent old
      · have heq : numberAt start j = numberAt start k := by simpa [sound.next] using new
        have := numberAt_inj (by have := few rfl; omega) (few rfl) heq
        omega
    | refused _ => exact absent
    | settled i m x _ _ _ =>
      rw [deliver_pending]
      exact fun h => absent ((List.filter_sublist.map _).subset h)
    | failed _ => simp
    | idle _ _ => exact absent

/-- A waiting caller finds the first verdict on it, and its number is pending until then. -/
theorem Sound.run_pending (sound : Sound start k t) (signals : List Signal)
    (enough : k + requests signals ≤ numberCount) (h : (id, mailbox) ∈ t.pending) :
    (t.run signals).mailboxes[mailbox]? =
        some ((signals.findSome? (Signal.verdict? id mailbox)).getD .waiting) ∧
      (id ∈ (t.run signals).pending.map (·.1) ↔
        signals.findSome? (Signal.verdict? id mailbox) = none) := by
  induction signals generalizing k t with
  | nil => exact ⟨sound.waits h, by simpa using ⟨mailbox, h⟩⟩
  | cons s rest ih =>
    rw [requests_cons] at enough
    have few : s.isRequest = true → k < numberCount := fun hs => by
      rw [if_pos hs] at enough
      omega
    rw [List.findSome?_cons]
    cases hv : s.verdict? id mailbox with
    | none => exact ih (sound.step few) (by omega) (sound.step_quiet few h hv)
    | some x =>
      obtain ⟨told, freed⟩ := sound.step_verdict few h hv
      obtain ⟨j, hj, rfl⟩ := sound.taken id (List.mem_map_of_mem h)
      have gone := (sound.step few).run_absent rest (by omega) (by omega) freed
      exact ⟨run_settled told (verdict_told hv) rest, by simpa using gone⟩

end ExchangeClient.Channel.RequestTable
