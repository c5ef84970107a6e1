import InverterDashboard.WebSocket.Locks

/-
  What a browser receives: every state frame is newer than those before it.

  A payload is built either when its peer connects, and then the new lock is free, or by a fan-out,
  and fan-outs do not overlap. So a state frame that has not been begun is a frame of the one
  fan-out, and newer than all that were begun (`Ordered.ahead`).

  Proved (`run_delivers`): in every interleaving there is one write a peer at most, the state frames
  that a peer receives are in the order in which their payloads were built, a peer that is
  forgotten is not written to again, and the table of write locks has connected peers only.
-/

namespace InverterDashboard.WebSocket

open Async Temporal

/-- A send that has not begun to write. -/
def Stage.isAhead : Stage → Bool
  | created | waiting _ => true
  | _ => false

/-- Two entries may come in this order. -/
def Precedes : Entry → Entry → Prop
  | .begun p (.state n), .begun q (.state m) => p = q → n < m
  | .written p (.state n), .written q (.state m) => p = q → n < m
  | .gone p, .begun q _ => p ≠ q
  | _, _ => True

/-- The number of a state frame that was begun for a peer. -/
def Entry.attempt? (p : Peer) : Entry → Option Nat
  | .begun q (.state n) => if q = p then some n else none
  | _ => none

/-- The number of a state frame that a peer received. -/
def Entry.receipt? (p : Peer) : Entry → Option Nat
  | .written q (.state n) => if q = p then some n else none
  | _ => none

theorem Entry.attempt?_eq {p : Peer} {e : Entry} {n : Nat} (h : e.attempt? p = some n) :
    e = .begun p (.state n) := by
  unfold Entry.attempt? at h
  split at h
  · split at h
    · next hq => rw [hq, Option.some.inj h]
    · cases h
  · cases h

theorem Entry.receipt?_eq {p : Peer} {e : Entry} {n : Nat} (h : e.receipt? p = some n) :
    e = .written p (.state n) := by
  unfold Entry.receipt? at h
  split at h
  · split at h
    · next hq => rw [hq, Option.some.inj h]
    · cases h
  · cases h

namespace Hub

/-- What is true of the log between two steps, and between the parts of one. -/
structure Ordered (h : Hub) : Prop where
  locked : Locked h
  handled : ∀ p, h.handlers p ≠ none → p ∈ h.known
  pairs : h.log.Pairwise Precedes
  begun : ∀ p frame, .begun p frame ∈ h.log → p ∈ h.known ∧ ∀ n, frame = .state n → n < h.built
  gone : ∀ p, .gone p ∈ h.log → p ∈ h.known ∧ p ∉ h.clients
  written : ∀ p frame, .written p frame ∈ h.log → .begun p frame ∈ h.log
  ahead : ∀ i send n, h.sends i = some send → send.stage.isAhead = true → send.frame = .state n →
    i.1 = .cast ∧ n < h.built ∧ ∀ m, .begun i.2 (.state m) ∈ h.log → m < n
  active : ∀ i send l, h.sends i = some send → send.stage = .writing l →
    .begun i.2 send.frame ∈ h.log ∧
      ∀ n m, send.frame = .state n → .written i.2 (.state m) ∈ h.log → m < n

theorem ordered_init : Ordered init where
  locked := locked_init
  handled := fun p hp => absurd rfl hp
  pairs := List.Pairwise.nil
  begun := fun p frame hmem => absurd hmem List.not_mem_nil
  gone := fun p hmem => absurd hmem List.not_mem_nil
  written := fun p frame hmem => absurd hmem List.not_mem_nil
  ahead := by
    intro i send n hsend
    cases hsend
  active := by
    intro i send l hsend
    cases hsend

/-! ## Parts that log nothing -/

/-- Nothing is logged, and sends only end or close. -/
theorem Ordered.quiet {h h' : Hub} (ho : Ordered h) (hl : Locked h') (hlog : h'.log = h.log)
    (hbuilt : h.built ≤ h'.built) (hknown : ∀ p ∈ h.known, p ∈ h'.known)
    (hclients : ∀ p ∈ h'.clients, p ∈ h.clients ∨ p ∉ h.known)
    (hhandled : ∀ p, h'.handlers p ≠ none → p ∈ h'.known)
    (hsends : ∀ i send, h'.sends i = some send →
      h.sends i = some send ∨ ∃ l, send.stage = .closing l) : Ordered h' where
  locked := hl
  handled := hhandled
  pairs := hlog ▸ ho.pairs
  begun := by
    intro p frame hmem
    rw [hlog] at hmem
    obtain ⟨hp, hn⟩ := ho.begun p frame hmem
    exact ⟨hknown p hp, fun n hframe => Nat.lt_of_lt_of_le (hn n hframe) hbuilt⟩
  gone := by
    intro p hmem
    rw [hlog] at hmem
    obtain ⟨hp, hclient⟩ := ho.gone p hmem
    refine ⟨hknown p hp, fun hmem' => ?_⟩
    rcases hclients p hmem' with hold | hnew
    · exact hclient hold
    · exact hnew hp
  written := by
    rw [hlog]
    exact ho.written
  ahead := by
    intro i send n hsend hahead hframe
    rw [hlog]
    rcases hsends i send hsend with hold | ⟨l, hclosing⟩
    · obtain ⟨hcast, hn, hall⟩ := ho.ahead i send n hold hahead hframe
      exact ⟨hcast, Nat.lt_of_lt_of_le hn hbuilt, hall⟩
    · rw [hclosing] at hahead
      cases hahead
  active := by
    intro i send l hsend hwriting
    rw [hlog]
    rcases hsends i send hsend with hold | ⟨m, hclosing⟩
    · exact ho.active i send l hold hwriting
    · rw [hclosing] at hwriting
      cases hwriting

theorem sends_drop {h : Hub} {i j : SendId} {send : Send} (hsend : (h.drop i).sends j = some send) :
    h.sends j = some send ∧ j ≠ i := by
  have hnone : (h.drop i).sends j = (h.setSend i none).sends j := by
    unfold drop
    split <;> rfl
  rw [hnone, sends_setSend] at hsend
  split at hsend
  · cases hsend
  · next hne => exact ⟨hsend, hne⟩

theorem Ordered.drop {h : Hub} (ho : Ordered h) (i : SendId) : Ordered (h.drop i) := by
  have hsame : (h.drop i).log = h.log ∧ (h.drop i).built = h.built ∧ (h.drop i).known = h.known ∧
      (h.drop i).clients = h.clients ∧ (h.drop i).handlers = h.handlers := by
    unfold Hub.drop
    split <;> exact ⟨rfl, rfl, rfl, rfl, rfl⟩
  obtain ⟨hlog, hbuilt, hknown, hclients, hhandlers⟩ := hsame
  apply ho.quiet (ho.locked.drop i) hlog (Nat.le_of_eq hbuilt.symm)
  · rw [hknown]
    exact fun p hp => hp
  · rw [hclients]
    exact fun p hp => Or.inl hp
  · rw [hhandlers, hknown]
    exact ho.handled
  · exact fun j send hsend => Or.inl (sends_drop hsend).1

theorem Ordered.setSend_none {h : Hub} (ho : Ordered h) (i : SendId) :
    Ordered (h.setSend i none) := by
  apply ho.quiet (ho.locked.setSend_none i) rfl (Nat.le_refl _) (fun p hp => hp) (fun p hp => Or.inl hp)
    ho.handled
  intro j send hsend
  rw [sends_setSend] at hsend
  split at hsend
  · cases hsend
  · exact Or.inl hsend

theorem Ordered.setLock {h : Hub} (ho : Ordered h) {l : LockId} {lock : FairLock SendId}
    (hl : Locked (h.setLock l lock)) : Ordered (h.setLock l lock) :=
  ho.quiet hl rfl (Nat.le_refl _) (fun _ hp => hp) (fun _ hp => Or.inl hp) ho.handled
    fun _ _ hsend => Or.inl hsend

theorem Ordered.release {h : Hub} (ho : Ordered h) {i : SendId} {l : LockId}
    (hbelow : l < h.nextLock) : Ordered (h.release i l) := by
  apply ho.quiet (ho.locked.release hbelow) rfl (Nat.le_refl _) (fun p hp => hp) (fun p hp => Or.inl hp)
    ho.handled
  intro j send hsend
  have hsend' : (h.setSend i none).sends j = some send := hsend
  rw [sends_setSend] at hsend'
  split at hsend'
  · cases hsend'
  · exact Or.inl hsend'

theorem Ordered.lockOf {h : Hub} (ho : Ordered h) {p : Peer} (hclient : p ∈ h.clients) :
    Ordered (h.lockOf p).2 := by
  have hl := (ho.locked.lockOf hclient).1
  unfold Hub.lockOf at hl ⊢
  split
  · exact ho
  · next hnone =>
    rw [hnone] at hl
    exact ho.quiet hl rfl (Nat.le_refl _) (fun _ hp => hp) (fun _ hp => Or.inl hp) ho.handled
      fun _ _ hsend => Or.inl hsend

theorem Ordered.setCasting {h : Hub} (ho : Ordered h) (lock : FairLock CastId) :
    Ordered { h with casting := lock } :=
  ho.quiet (ho.locked.setCasting lock) rfl (Nat.le_refl _) (fun _ hp => hp) (fun _ hp => Or.inl hp)
    ho.handled fun _ _ hsend => Or.inl hsend

theorem Ordered.setBuilt {h : Hub} (ho : Ordered h) {n : Nat} (hn : h.built ≤ n) :
    Ordered { h with built := n } :=
  ho.quiet (ho.locked.setBuilt n) rfl hn (fun _ hp => hp) (fun _ hp => Or.inl hp)
    ho.handled fun _ _ hsend => Or.inl hsend

theorem Ordered.setHandler {h : Hub} (ho : Ordered h) {p : Peer} (stage : Option Handler)
    (hp : stage ≠ none → p ∈ h.known) : Ordered (h.setHandler p stage) := by
  apply ho.quiet (ho.locked.setHandler p stage) rfl (Nat.le_refl _) (fun q hq => hq)
    (fun q hq => Or.inl hq) ?_ fun _ _ hsend => Or.inl hsend
  intro q hq
  have hq' : Function.update h.handlers p stage q ≠ none := hq
  rw [Function.update_apply] at hq'
  split at hq'
  · next heq => exact heq ▸ hp hq'
  · exact ho.handled q hq'

theorem Ordered.accept {h : Hub} (ho : Ordered h) {p : Peer} (hnew : p ∉ h.known) :
    Ordered { h with clients := p :: h.clients, known := p :: h.known } := by
  apply ho.quiet (ho.locked.accept hnew) rfl (Nat.le_refl _) (fun q hq => List.mem_cons_of_mem p hq)
    ?_ (fun q hq => List.mem_cons_of_mem p (ho.handled q hq)) fun _ _ hsend => Or.inl hsend
  intro q hq
  rcases List.mem_cons.mp hq with rfl | hq
  · exact Or.inr hnew
  · exact Or.inl hq

/-- A send that has not begun. -/
theorem Ordered.setSend_ahead {h : Hub} (ho : Ordered h) {i : SendId} {frame : Frame}
    {stage : Stage} (hl : Locked (h.setSend i (some ⟨frame, stage⟩)))
    (hahead : stage.isAhead = true)
    (hframe : ∀ n, frame = .state n →
      i.1 = .cast ∧ n < h.built ∧ ∀ m, .begun i.2 (.state m) ∈ h.log → m < n) :
    Ordered (h.setSend i (some ⟨frame, stage⟩)) where
  locked := hl
  handled := ho.handled
  pairs := ho.pairs
  begun := ho.begun
  gone := ho.gone
  written := ho.written
  ahead := by
    intro j send n hsend hahead' hn
    rw [sends_setSend] at hsend
    split at hsend
    · next heq =>
      obtain rfl := Option.some.inj hsend
      rw [heq]
      exact hframe n hn
    · exact ho.ahead j send n hsend hahead' hn
  active := by
    intro j send l hsend hwriting
    rw [sends_setSend] at hsend
    split at hsend
    · obtain rfl := Option.some.inj hsend
      have hstage : stage = .writing l := hwriting
      rw [hstage] at hahead
      cases hahead
    · exact ho.active j send l hsend hwriting

/-! ## Parts that log -/

theorem ne_of_mem_concat {log : List Entry} {a e : Entry} (ha : a ∈ log ++ [e]) (hne : a ≠ e) :
    a ∈ log := by
  rcases List.mem_append.mp ha with hmem | hlast
  · exact hmem
  · exact absurd (List.mem_singleton.mp hlast) hne

theorem pairwise_concat {log : List Entry} {e : Entry} (h : log.Pairwise Precedes)
    (he : ∀ a ∈ log, Precedes a e) : (log ++ [e]).Pairwise Precedes := by
  rw [List.pairwise_append]
  refine ⟨h, List.pairwise_singleton _ _, ?_⟩
  intro a ha b hb
  rw [List.mem_singleton.mp hb]
  exact he a ha

theorem Ordered.forget {h : Hub} (ho : Ordered h) {p : Peer} (hp : p ∈ h.known) :
    Ordered (h.forget p) where
  locked := ho.locked.forget p
  handled := ho.handled
  pairs := by
    apply pairwise_concat ho.pairs
    intro a _
    cases a with
    | begun q frame => cases frame <;> trivial
    | written q frame => cases frame <;> trivial
    | gone q => trivial
  begun := fun q frame hmem => ho.begun q frame (ne_of_mem_concat hmem Entry.noConfusion)
  gone := by
    intro q hmem
    by_cases hq : q = p
    · rw [hq]
      exact ⟨hp, fun hclient => (mem_forget.mp hclient).2 rfl⟩
    · have hold := ho.gone q (ne_of_mem_concat hmem fun e => hq (Entry.gone.inj e))
      exact ⟨hold.1, fun hclient => hold.2 (mem_forget.mp hclient).1⟩
  written := fun q frame hmem =>
    List.mem_append_left _ (ho.written q frame (ne_of_mem_concat hmem Entry.noConfusion))
  ahead := by
    intro i send n hsend hahead hframe
    obtain ⟨hcast, hn, hall⟩ := ho.ahead i send n hsend hahead hframe
    exact ⟨hcast, hn, fun m hmem => hall m (ne_of_mem_concat hmem Entry.noConfusion)⟩
  active := by
    intro i send l hsend hwriting
    obtain ⟨hbegun, hall⟩ := ho.active i send l hsend hwriting
    exact ⟨List.mem_append_left _ hbegun,
      fun n m hframe hmem => hall n m hframe (ne_of_mem_concat hmem Entry.noConfusion)⟩

theorem Ordered.close {h : Hub} (ho : Ordered h) {p : Peer} (hp : p ∈ h.known) :
    Ordered (h.close p) :=
  (ho.forget hp).setHandler none fun hne => absurd rfl hne

theorem Ordered.resume {h : Hub} (ho : Ordered h) (i : SendId) (sent : Bool) :
    Ordered (h.resume i sent) := by
  have hknown : ∀ {stage : Handler}, h.handlers i.2 = some stage → i.2 ∈ h.known := by
    intro stage hstage
    apply ho.handled
    rw [hstage]
    exact Option.some_ne_none stage
  unfold Hub.resume
  split
  · next hstage =>
    split
    · exact ho.setHandler _ fun _ => hknown hstage
    · exact ho.close (hknown hstage)
  · next hstage => exact ho.setHandler _ fun _ => hknown hstage
  · exact ho

/-- A send begins to write: a state frame is newer than those the peer was sent, and older than
    one that waits. -/
theorem Ordered.begin {h : Hub} (ho : Ordered h) {i : SendId} {frame : Frame} {l : LockId}
    (hl : Locked (h.setSend i (some ⟨frame, .writing l⟩))) (hclient : i.2 ∈ h.clients)
    (hnew : ∀ n, frame = .state n → n < h.built ∧ (∀ m, .begun i.2 (.state m) ∈ h.log → m < n) ∧
      ∀ j, j.2 = i.2 → j ≠ i → j.1 = .cast → h.sends j = none) :
    Ordered ((h.setSend i (some ⟨frame, .writing l⟩)).note (.begun i.2 frame)) where
  locked := hl.note _
  handled := ho.handled
  pairs := by
    apply pairwise_concat ho.pairs
    intro a ha
    cases a with
    | begun p f =>
      cases f with
      | reply => trivial
      | state m =>
        cases frame with
        | reply => trivial
        | state n =>
          intro heq
          exact (hnew n rfl).2.1 m (heq ▸ ha)
    | written p f => cases f <;> trivial
    | gone p =>
      intro heq
      exact (ho.gone p ha).2 (heq ▸ hclient)
  begun := by
    intro p f hmem
    rcases List.mem_append.mp hmem with hold | hlast
    · exact ho.begun p f hold
    · obtain ⟨rfl, rfl⟩ := Entry.begun.inj (List.mem_singleton.mp hlast)
      exact ⟨ho.locked.known _ hclient, fun n hframe => (hnew n hframe).1⟩
  gone := fun p hmem => ho.gone p (ne_of_mem_concat hmem Entry.noConfusion)
  written := fun p f hmem =>
    List.mem_append_left _ (ho.written p f (ne_of_mem_concat hmem Entry.noConfusion))
  ahead := by
    intro j send n hsend hahead hframe
    have hsend' : (h.setSend i (some ⟨frame, .writing l⟩)).sends j = some send := hsend
    rw [sends_setSend] at hsend'
    split at hsend'
    · obtain rfl := Option.some.inj hsend'
      cases hahead
    · next hne =>
      obtain ⟨hcast, hn, hall⟩ := ho.ahead j send n hsend' hahead hframe
      refine ⟨hcast, hn, fun m hmem => ?_⟩
      rcases List.mem_append.mp hmem with hold | hlast
      · exact hall m hold
      · -- Another state frame for the same peer would be one of a fan-out.
        obtain ⟨hpeer, hm⟩ := Entry.begun.inj (List.mem_singleton.mp hlast)
        have hgone := (hnew m hm.symm).2.2 j hpeer hne hcast
        rw [hgone] at hsend'
        cases hsend'
  active := by
    intro j send m hsend hwriting
    have hsend' : (h.setSend i (some ⟨frame, .writing l⟩)).sends j = some send := hsend
    rw [sends_setSend] at hsend'
    split at hsend'
    · next heq =>
      obtain rfl := Option.some.inj hsend'
      rw [heq]
      refine ⟨List.mem_append_right _ List.mem_cons_self, fun n k hframe hmem => ?_⟩
      have hold := ne_of_mem_concat hmem Entry.noConfusion
      exact (hnew n hframe).2.1 k (ho.written _ _ hold)
    · obtain ⟨hbegun, hall⟩ := ho.active j send m hsend' hwriting
      exact ⟨List.mem_append_left _ hbegun,
        fun n k hframe hmem => hall n k hframe (ne_of_mem_concat hmem Entry.noConfusion)⟩

/-- A frame is written, the newest that was, while nothing else is being written to the peer. -/
theorem Ordered.noteWritten {h : Hub} (ho : Ordered h) {p : Peer} {frame : Frame}
    (hbegun : .begun p frame ∈ h.log)
    (hnewest : ∀ n m, frame = .state n → .written p (.state m) ∈ h.log → m < n)
    (hidle : ∀ i send l, i.2 = p → h.sends i = some send → send.stage ≠ .writing l) :
    Ordered (h.note (.written p frame)) where
  locked := ho.locked.note _
  handled := ho.handled
  pairs := by
    apply pairwise_concat ho.pairs
    intro a ha
    cases a with
    | begun q f => cases f <;> trivial
    | gone q => trivial
    | written q f =>
      cases f with
      | reply => trivial
      | state m =>
        cases frame with
        | reply => trivial
        | state n =>
          intro heq
          exact hnewest n m rfl (heq ▸ ha)
  begun := fun q f hmem => ho.begun q f (ne_of_mem_concat hmem Entry.noConfusion)
  gone := fun q hmem => ho.gone q (ne_of_mem_concat hmem Entry.noConfusion)
  written := by
    intro q f hmem
    apply List.mem_append_left
    rcases List.mem_append.mp hmem with hold | hlast
    · exact ho.written q f hold
    · obtain ⟨rfl, rfl⟩ := Entry.written.inj (List.mem_singleton.mp hlast)
      exact hbegun
  ahead := by
    intro i send n hsend hahead hframe
    obtain ⟨hcast, hn, hall⟩ := ho.ahead i send n hsend hahead hframe
    exact ⟨hcast, hn, fun m hmem => hall m (ne_of_mem_concat hmem Entry.noConfusion)⟩
  active := by
    intro i send l hsend hwriting
    obtain ⟨hbegun', hall⟩ := ho.active i send l hsend hwriting
    refine ⟨List.mem_append_left _ hbegun', fun n m hframe hmem => ?_⟩
    rcases List.mem_append.mp hmem with hold | hlast
    · exact hall n m hframe hold
    · have hpeer := (Entry.written.inj (List.mem_singleton.mp hlast)).1
      exact absurd hwriting (hidle i send l hpeer hsend)

theorem drop_note (h : Hub) (e : Entry) (i : SendId) : (h.note e).drop i = (h.drop i).note e := by
  have hsame : (h.note e).sends = h.sends := rfl
  unfold drop
  rw [hsame]
  cases (h.sends i).bind fun send => send.stage.lock? with
  | none => rfl
  | some l => rfl

/-- A write ends. -/
theorem Ordered.finishWrite {h : Hub} (ho : Ordered h) {i : SendId} {frame : Frame} {l : LockId}
    (hsend : h.sends i = some ⟨frame, .writing l⟩) :
    Ordered ((h.note (.written i.2 frame)).drop i) := by
  obtain ⟨hbegun, hnewest⟩ := ho.active i _ l hsend rfl
  have hlog : (h.drop i).log = h.log := by
    unfold Hub.drop
    split <;> rfl
  rw [drop_note]
  apply (ho.drop i).noteWritten
  · rw [hlog]
    exact hbegun
  · rw [hlog]
    exact hnewest
  · intro j send m hpeer hj hwriting
    obtain ⟨hold, hne⟩ := sends_drop hj
    apply hne
    apply ho.locked.exclusive (l := m) (m := l) hpeer
    · exact ⟨send, hold, by rw [hwriting]; rfl⟩
    · exact ⟨_, hsend, rfl⟩

/-! ## Steps -/

theorem Ordered.enter {h : Hub} (ho : Ordered h) {i : SendId} {frame : Frame} {l : LockId}
    (hbelow : l < h.nextLock) (htable : i.2 ∈ h.clients → h.table i.2 = some l)
    (hholder : (h.locks l).holder = some i)
    (hnew : ∀ n, frame = .state n → n < h.built ∧ (∀ m, .begun i.2 (.state m) ∈ h.log → m < n) ∧
      ∀ j, j.2 = i.2 → j ≠ i → j.1 = .cast → h.sends j = none) :
    Ordered (h.enter i frame l) := by
  unfold Hub.enter
  split
  · next hclient =>
    refine ho.begin ?_ hclient hnew
    apply ho.locked.setSend_at frame rfl hclient (htable hclient)
    intro m hm
    rw [← Option.some.inj hm]
    exact hholder
  · exact (ho.release hbelow).resume i false

/-- What a state frame must be when `_send_state` is called: a frame of the fan-out, or the first
    frame of a peer that is at no lock yet. -/
structure Fresh (h : Hub) (i : SendId) (n : Nat) : Prop where
  built : n < h.built
  newer : ∀ m, .begun i.2 (.state m) ∈ h.log → m < n
  source : i.1 = .cast ∨ h.table i.2 = none ∧ ∀ j, j.2 = i.2 → h.sends j = none

theorem Ordered.sendState {h : Hub} (ho : Ordered h) {i : SendId} {frame : Frame}
    (hfresh : ∀ n, frame = .state n → h.Fresh i n) : Ordered (h.sendState i frame) := by
  unfold Hub.sendState
  split
  · next hclient =>
    have ho' := ho.lockOf hclient
    have htable := (ho.locked.lockOf hclient).2
    -- A peer without a lock gets one that is free.
    have hfree : h.table i.2 = none → ((h.lockOf i.2).2.locks (h.lockOf i.2).1).isFree = true := by
      intro hnone
      unfold Hub.lockOf
      rw [hnone]
      show (h.locks h.nextLock).isFree = true
      rw [ho.locked.fresh _ (Nat.le_refl _)]
      rfl
    have hsame : (h.lockOf i.2).2.clients = h.clients ∧ (h.lockOf i.2).2.built = h.built ∧
        (h.lockOf i.2).2.log = h.log ∧ (h.lockOf i.2).2.sends = h.sends := by
      unfold Hub.lockOf
      split <;> exact ⟨rfl, rfl, rfl, rfl⟩
    generalize h.lockOf i.2 = found at ho' htable hfree hsame
    obtain ⟨l, h'⟩ := found
    dsimp only at ho' htable hfree hsame ⊢
    obtain ⟨hclients, hbuilt, hlog, hsends⟩ := hsame
    have hbelow := (ho'.locked.table i.2 l htable).2
    split
    · next hisFree =>
      have hlocked := ho'.locked.setLock_free ((h'.locks l).acquire i) hbelow
        (FairLock.holder_of_isFree hisFree)
      refine (ho'.setLock hlocked).enter hbelow (fun _ => htable) ?_ ?_
      · rw [locks_setLock_self]
        exact FairLock.acquire_free hisFree
      · intro n hn
        obtain ⟨hlt, hnewer, hsource⟩ := hfresh n hn
        refine ⟨hbuilt ▸ hlt, hlog ▸ hnewer, fun j hpeer hne hcast => ?_⟩
        rcases hsource with hi | ⟨-, hnone⟩
        · exact absurd (Prod.ext (hcast.trans hi.symm) hpeer) hne
        · show h'.sends j = none
          rw [hsends]
          exact hnone j hpeer
    · next hheld =>
      have hlocked := ho'.locked.setLock ((h'.locks l).acquire i) hbelow fun j hj =>
        FairLock.acquire_holder (ho'.locked.held j l hj)
      refine (ho'.setLock hlocked).setSend_ahead ?_ rfl ?_
      · apply hlocked.setSend_at frame rfl (hclients ▸ hclient) htable
        intro m hm
        cases hm
      · intro n hn
        obtain ⟨hlt, hnewer, hsource⟩ := hfresh n hn
        refine ⟨?_, hbuilt ▸ hlt, hlog ▸ hnewer⟩
        rcases hsource with hi | ⟨hnone, -⟩
        · exact hi
        · exact absurd (hfree hnone) hheld
  · exact (ho.setSend_none i).resume i false

/-- A fan-out makes tasks with a number that no payload had before. -/
theorem Ordered.fanOut {h : Hub} (ho : Ordered h) (b : CastId) (built : Bool) :
    Ordered (h.fanOut b built) := by
  have hl := ho.locked.fanOut b built
  unfold Hub.fanOut at hl ⊢
  split
  · exact ho.setCasting _
  · next hbuild =>
    rw [if_neg hbuild] at hl
    exact {
      locked := hl
      handled := ho.handled
      pairs := ho.pairs
      begun := by
        intro p frame hmem
        obtain ⟨hp, hn⟩ := ho.begun p frame hmem
        exact ⟨hp, fun n hframe => Nat.lt_succ_of_lt (hn n hframe)⟩
      gone := ho.gone
      written := ho.written
      ahead := by
        intro i send n hsend hahead hframe
        dsimp only at hsend
        split at hsend
        · next hcast =>
          obtain rfl := Option.some.inj hsend
          obtain rfl := Frame.state.inj hframe
          exact ⟨hcast.1, Nat.lt_succ_self _, fun m hmem => (ho.begun i.2 _ hmem).2 m rfl⟩
        · obtain ⟨hcast, hn, hall⟩ := ho.ahead i send n hsend hahead hframe
          exact ⟨hcast, Nat.lt_succ_of_lt hn, hall⟩
      active := by
        intro i send l hsend hwriting
        dsimp only at hsend
        split at hsend
        · obtain rfl := Option.some.inj hsend
          cases hwriting
        · exact ho.active i send l hsend hwriting }

theorem Ordered.connect {h : Hub} (ho : Ordered h) (p : Peer) (built : Bool) :
    Ordered (h.connect p built) := by
  unfold Hub.connect
  split
  · exact ho
  · next hnew =>
    have hadmitted := ho.accept hnew
    dsimp only
    split
    · have hbuilt := hadmitted.setBuilt (Nat.le_succ h.built)
      refine (hbuilt.setHandler (p := p) (some .opening) fun _ => List.mem_cons_self).sendState ?_
      intro n hn
      obtain rfl := Frame.state.inj hn
      -- Nothing is known of a peer that connects.
      refine ⟨Nat.lt_succ_self _, ?_, Or.inr ⟨?_, ?_⟩⟩
      · intro m hmem
        exact absurd (ho.begun p _ hmem).1 hnew
      · show h.table p = none
        rw [Option.eq_none_iff_forall_ne_some]
        intro l hl
        exact hnew (ho.locked.known p (ho.locked.table p l hl).1)
      · intro j hpeer
        by_contra hsend
        have hknown := ho.locked.sending j hsend
        rw [show j.2 = p from hpeer] at hknown
        exact hnew hknown
    · exact hadmitted.close List.mem_cons_self

/-- **Every step keeps the order.** -/
theorem Ordered.step {h : Hub} (ho : Ordered h) (e : Event) : Ordered (h.step e) := by
  have hknown : ∀ {p : Peer} {stage : Handler}, h.handlers p = some stage → p ∈ h.known := by
    intro p stage hstage
    apply ho.handled
    rw [hstage]
    exact Option.some_ne_none stage
  unfold Hub.step
  cases e with
  | connect p built => exact ho.connect p built
  | start p =>
    dsimp only
    split
    · next frame hsend =>
      apply ho.sendState
      intro n hn
      obtain ⟨-, hlt, hnewer⟩ := ho.ahead _ _ n hsend rfl hn
      exact ⟨hlt, hnewer, Or.inl rfl⟩
    · exact ho
  | wake i =>
    dsimp only
    split
    · next frame l hsend =>
      split
      · next hturn =>
        obtain ⟨hfree, hholder⟩ := FairLock.grant_holder hturn
        obtain ⟨hbelow, htable⟩ := ho.locked.used i l ⟨_, hsend, rfl⟩
        have hlocked := ho.locked.setLock_free (h.locks l).grant hbelow hfree
        refine (ho.setLock hlocked).enter hbelow htable ?_ ?_
        · rw [locks_setLock_self]
          exact hholder
        · intro n hn
          obtain ⟨hcast, hlt, hnewer⟩ := ho.ahead i _ n hsend rfl hn
          exact ⟨hlt, hnewer, fun j hpeer hne hj =>
            absurd (Prod.ext (hj.trans hcast.symm) hpeer) hne⟩
      · exact ho
    · exact ho
  | written i =>
    dsimp only
    split
    · next hsend => exact (ho.finishWrite hsend).resume i true
    · exact ho
  | failed i =>
    dsimp only
    split
    · next frame l hsend =>
      have hpeer : i.2 ∈ h.known := by
        apply ho.locked.sending
        rw [hsend]
        exact Option.some_ne_none _
      have hforgot := ho.forget hpeer
      have hlocked : Locked ((h.forget i.2).setSend i (some ⟨frame, .closing l⟩)) :=
        hforgot.locked.setSend_held frame (l := l) ⟨_, hsend, rfl⟩ rfl
      apply hforgot.quiet hlocked rfl (Nat.le_refl _) (fun _ hp => hp) (fun _ hp => Or.inl hp)
        hforgot.handled
      intro j send hj
      rw [sends_setSend] at hj
      split at hj
      · obtain rfl := Option.some.inj hj
        exact Or.inr ⟨l, rfl⟩
      · exact Or.inl hj
    · exact ho
  | closed i =>
    dsimp only
    split
    · exact (ho.drop i).resume i false
    · exact ho
  | cancel p => exact ho.drop _
  | receive p =>
    dsimp only
    split
    · next hstage => exact ho.setHandler _ fun _ => hknown hstage
    · exact ho
  | reply p requested =>
    dsimp only
    split
    · next hstage =>
      split
      · apply (ho.setHandler (some .replying) fun _ => hknown hstage).sendState
        intro n hn
        cases hn
      · exact ho.setHandler _ fun _ => hknown hstage
    · exact ho
  | disconnect p =>
    dsimp only
    split
    · next hstage => exact ho.close (hknown hstage)
    · exact ho
  | abort p =>
    dsimp only
    split
    · next hsome =>
      obtain ⟨stage, hstage⟩ := Option.isSome_iff_exists.mp hsome
      apply (ho.drop _).close
      have hsame : (h.drop (.handler, p)).known = h.known := by
        unfold Hub.drop
        split <;> rfl
      rw [hsame]
      exact hknown hstage
    · exact ho
  | broadcast b built =>
    dsimp only
    split
    · exact ho
    · split
      · exact (ho.setCasting _).fanOut b built
      · exact ho.setCasting _
  | turn b built =>
    dsimp only
    split
    · exact (ho.setCasting _).fanOut b built
    · exact ho
  | abandon b =>
    dsimp only
    split
    · exact ho
    · exact ho.setCasting _
  | finish b =>
    dsimp only
    split
    · exact ho.setCasting _
    · exact ho

/-! ## Deliveries -/

/-- The numbers of the state frames that were begun for a peer. -/
def attempts (h : Hub) (p : Peer) : List Nat := h.log.filterMap (Entry.attempt? p)

/-- The numbers of the state frames that a peer received. -/
def received (h : Hub) (p : Peer) : List Nat := h.log.filterMap (Entry.receipt? p)

def IsWriting (h : Hub) (i : SendId) : Prop :=
  ∃ send l, h.sends i = some send ∧ send.stage = .writing l

structure Delivers (h : Hub) : Prop where
  exclusive : ∀ i j, i.2 = j.2 → h.IsWriting i → h.IsWriting j → i = j
  attempted : ∀ p, (h.attempts p).Pairwise (· < ·)
  ordered : ∀ p, (h.received p).Pairwise (· < ·)
  silent : ∀ p before after, h.log = before ++ .gone p :: after → ∀ frame, .begun p frame ∉ after
  table : ∀ p, h.table p ≠ none → p ∈ h.clients

theorem Ordered.delivers {h : Hub} (ho : Ordered h) : Delivers h where
  exclusive := by
    rintro i j hpeer ⟨send, l, hsend, hwriting⟩ ⟨send', m, hsend', hwriting'⟩
    apply ho.locked.exclusive (l := l) (m := m) hpeer
    · exact ⟨send, hsend, by rw [hwriting]; rfl⟩
    · exact ⟨send', hsend', by rw [hwriting']; rfl⟩
  attempted := by
    intro p
    unfold attempts
    rw [List.pairwise_filterMap]
    apply ho.pairs.imp
    intro a b hab n ha m hb
    rw [Entry.attempt?_eq ha, Entry.attempt?_eq hb] at hab
    exact hab rfl
  ordered := by
    intro p
    unfold received
    rw [List.pairwise_filterMap]
    apply ho.pairs.imp
    intro a b hab n ha m hb
    rw [Entry.receipt?_eq ha, Entry.receipt?_eq hb] at hab
    exact hab rfl
  silent := by
    intro p before after hlog frame hmem
    have hpairs := ho.pairs
    rw [hlog, List.pairwise_append] at hpairs
    exact (List.pairwise_cons.mp hpairs.2.1).1 _ hmem rfl
  table := by
    intro p hp
    obtain ⟨l, hl⟩ := Option.ne_none_iff_exists'.mp hp
    exact (ho.locked.table p l hl).1

/-- **Writes are exclusive, ordered and only to peers that are connected**, in every
    interleaving. -/
theorem run_delivers (es : List Event) : Delivers (replay step init es) :=
  (replay_invariant step ordered_init (fun _ e ho => ho.step e) es).delivers

end Hub

end InverterDashboard.WebSocket
