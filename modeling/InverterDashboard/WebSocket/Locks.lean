import InverterDashboard.WebSocket.Hub

/-
  One lock a peer, and one write under a lock.

  `setdefault` makes a lock only for a connected peer without one, and `_forget_client` takes it
  out of the table together with the peer. A send that got the old lock keeps it, but finds the
  peer gone. So all the sends of a peer are at one lock (`Locked.shared`), even after the peer has
  gone, and whoever writes holds it (`Locked.held`).
-/

namespace InverterDashboard.WebSocket

open Async

/-- The lock that a send holds. -/
def Stage.held? : Stage → Option LockId
  | writing l | closing l => some l
  | _ => none

namespace Hub

/-- The send waits for the lock or holds it. -/
def Uses (h : Hub) (i : SendId) (l : LockId) : Prop :=
  ∃ send, h.sends i = some send ∧ send.stage.lock? = some l

/-- The send holds the lock. -/
def Holds (h : Hub) (i : SendId) (l : LockId) : Prop :=
  ∃ send, h.sends i = some send ∧ send.stage.held? = some l

/-- What is true of the locks between two steps, and between the parts of one. -/
structure Locked (h : Hub) : Prop where
  known : ∀ p ∈ h.clients, p ∈ h.known
  sending : ∀ i, h.sends i ≠ none → i.2 ∈ h.known
  table : ∀ p l, h.table p = some l → p ∈ h.clients ∧ l < h.nextLock
  used : ∀ i l, h.Uses i l → l < h.nextLock ∧ (i.2 ∈ h.clients → h.table i.2 = some l)
  shared : ∀ i j l m, i.2 = j.2 → h.Uses i l → h.Uses j m → l = m
  held : ∀ i l, h.Holds i l → (h.locks l).holder = some i
  fresh : ∀ l, h.nextLock ≤ l → h.locks l = .free

theorem locked_init : Locked init where
  known := fun p hp => absurd hp List.not_mem_nil
  sending := fun i hi => absurd rfl hi
  table := by
    intro p l hl
    cases hl
  used := by
    rintro i l ⟨send, hsend, -⟩
    cases hsend
  shared := by
    rintro i j l m - ⟨send, hsend, -⟩
    cases hsend
  held := by
    rintro i l ⟨send, hsend, -⟩
    cases hsend
  fresh := fun l _ => rfl

theorem Holds.uses {h : Hub} {i : SendId} {l : LockId} (hi : h.Holds i l) : h.Uses i l := by
  obtain ⟨send, hsend, hheld⟩ := hi
  refine ⟨send, hsend, ?_⟩
  cases hstage : send.stage with
  | created | waiting l' =>
    rw [hstage] at hheld
    cases hheld
  | writing l' | closing l' =>
    rw [hstage] at hheld
    exact hheld

/-! ## Sends -/

theorem sends_setSend (h : Hub) (i j : SendId) (send : Option Send) :
    (h.setSend i send).sends j = if j = i then send else h.sends j :=
  Function.update_apply h.sends i send j

theorem sends_setSend_self (h : Hub) (i : SendId) (send : Option Send) :
    (h.setSend i send).sends i = send := by
  rw [sends_setSend, if_pos rfl]

theorem sends_setSend_ne (h : Hub) {i j : SendId} (hne : j ≠ i) (send : Option Send) :
    (h.setSend i send).sends j = h.sends j := by
  rw [sends_setSend, if_neg hne]

theorem uses_setSend_ne {h : Hub} {i j : SendId} (hne : j ≠ i) {send : Option Send} {l : LockId} :
    (h.setSend i send).Uses j l ↔ h.Uses j l := by
  unfold Uses
  rw [sends_setSend_ne h hne]

theorem holds_setSend_ne {h : Hub} {i j : SendId} (hne : j ≠ i) {send : Option Send} {l : LockId} :
    (h.setSend i send).Holds j l ↔ h.Holds j l := by
  unfold Holds
  rw [sends_setSend_ne h hne]

theorem not_uses_none {h : Hub} {i : SendId} {l : LockId} : ¬ (h.setSend i none).Uses i l := by
  rintro ⟨send, hsend, -⟩
  rw [sends_setSend_self] at hsend
  cases hsend

theorem uses_setSend_some {h : Hub} {i : SendId} {frame : Frame} {stage : Stage} {l : LockId}
    (hi : (h.setSend i (some ⟨frame, stage⟩)).Uses i l) : stage.lock? = some l := by
  obtain ⟨send, hsend, hlock⟩ := hi
  rw [sends_setSend_self] at hsend
  obtain rfl := Option.some.inj hsend
  exact hlock

theorem holds_setSend_some {h : Hub} {i : SendId} {frame : Frame} {stage : Stage} {l : LockId}
    (hi : (h.setSend i (some ⟨frame, stage⟩)).Holds i l) : stage.held? = some l := by
  obtain ⟨send, hsend, hheld⟩ := hi
  rw [sends_setSend_self] at hsend
  obtain rfl := Option.some.inj hsend
  exact hheld

/-- A send ends. -/
theorem Locked.setSend_none {h : Hub} (hl : Locked h) (i : SendId) : Locked (h.setSend i none) where
  known := hl.known
  sending := by
    intro j hj
    apply hl.sending
    intro hnone
    rw [sends_setSend] at hj
    split at hj
    · exact hj rfl
    · exact hj hnone
  table := hl.table
  used := by
    intro j l hj
    by_cases hne : j = i
    · subst hne
      exact absurd hj not_uses_none
    · exact hl.used j l ((uses_setSend_ne hne).mp hj)
  shared := by
    intro j k l m hjk hj hk
    by_cases hji : j = i
    · subst hji
      exact absurd hj not_uses_none
    · by_cases hki : k = i
      · subst hki
        exact absurd hk not_uses_none
      · exact hl.shared j k l m hjk ((uses_setSend_ne hji).mp hj) ((uses_setSend_ne hki).mp hk)
  held := by
    intro j l hj
    by_cases hne : j = i
    · subst hne
      exact absurd hj.uses not_uses_none
    · exact hl.held j l ((holds_setSend_ne hne).mp hj)
  fresh := hl.fresh

/-- A send comes to a stage at the lock of its peer. -/
theorem Locked.setSend_at {h : Hub} (hl : Locked h) {i : SendId} (frame : Frame) {stage : Stage}
    {l : LockId} (hlock : stage.lock? = some l) (hclient : i.2 ∈ h.clients)
    (htable : h.table i.2 = some l)
    (hheld : ∀ m, stage.held? = some m → (h.locks m).holder = some i) :
    Locked (h.setSend i (some ⟨frame, stage⟩)) where
  known := hl.known
  sending := by
    intro j hj
    by_cases hne : j = i
    · rw [hne]
      exact hl.known i.2 hclient
    · rw [sends_setSend_ne h hne] at hj
      exact hl.sending j hj
  table := hl.table
  used := by
    intro j m hj
    by_cases hne : j = i
    · subst hne
      obtain rfl : l = m := Option.some.inj (hlock.symm.trans (uses_setSend_some hj))
      exact ⟨(hl.table _ _ htable).2, fun _ => htable⟩
    · exact hl.used j m ((uses_setSend_ne hne).mp hj)
  shared := by
    have hall : ∀ j m, j.2 = i.2 → (h.setSend i (some ⟨frame, stage⟩)).Uses j m → m = l := by
      intro j m hji hj
      by_cases hne : j = i
      · subst hne
        exact Option.some.inj ((uses_setSend_some hj).symm.trans hlock)
      · have hcurrent := (hl.used j m ((uses_setSend_ne hne).mp hj)).2 (hji ▸ hclient)
        rw [hji, htable] at hcurrent
        exact (Option.some.inj hcurrent).symm
    intro j k m n hjk hj hk
    by_cases hji : j.2 = i.2
    · rw [hall j m hji hj, hall k n (hjk ▸ hji) hk]
    · have hj' : j ≠ i := fun e => hji (congrArg Prod.snd e)
      have hk' : k ≠ i := fun e => hji (hjk.trans (congrArg Prod.snd e))
      exact hl.shared j k m n hjk ((uses_setSend_ne hj').mp hj) ((uses_setSend_ne hk').mp hk)
  held := by
    intro j m hj
    by_cases hne : j = i
    · subst hne
      exact hheld m (holds_setSend_some hj)
    · exact hl.held j m ((holds_setSend_ne hne).mp hj)
  fresh := hl.fresh

/-- A send goes from one stage to another at the lock that it holds. -/
theorem Locked.setSend_held {h : Hub} (hl : Locked h) {i : SendId} (frame : Frame) {stage : Stage}
    {l : LockId} (hholds : h.Holds i l) (hlock : stage.lock? = some l) :
    Locked (h.setSend i (some ⟨frame, stage⟩)) := by
  have hold : ∀ {j : SendId} {m : LockId}, (h.setSend i (some ⟨frame, stage⟩)).Uses j m →
      h.Uses j m ∧ (j = i → m = l) := by
    intro j m hj
    by_cases hne : j = i
    · subst hne
      obtain rfl : l = m := Option.some.inj (hlock.symm.trans (uses_setSend_some hj))
      exact ⟨hholds.uses, fun _ => rfl⟩
    · exact ⟨(uses_setSend_ne hne).mp hj, fun e => absurd e hne⟩
  exact {
    known := hl.known
    sending := by
      intro j hj
      by_cases hne : j = i
      · obtain ⟨send, hsend, -⟩ := hholds
        rw [hne]
        apply hl.sending i
        rw [hsend]
        exact Option.some_ne_none send
      · rw [sends_setSend_ne h hne] at hj
        exact hl.sending j hj
    table := hl.table
    used := fun j m hj => hl.used j m (hold hj).1
    shared := fun j k m n hjk hj hk => hl.shared j k m n hjk (hold hj).1 (hold hk).1
    held := by
      intro j m hj
      by_cases hne : j = i
      · rw [(hold hj.uses).2 hne, hne]
        exact hl.held i l hholds
      · exact hl.held j m ((holds_setSend_ne hne).mp hj)
    fresh := hl.fresh }

/-! ## Locks -/

theorem locks_setLock (h : Hub) (l m : LockId) (lock : FairLock SendId) :
    (h.setLock l lock).locks m = if m = l then lock else h.locks m :=
  Function.update_apply h.locks l lock m

theorem locks_setLock_self (h : Hub) (l : LockId) (lock : FairLock SendId) :
    (h.setLock l lock).locks l = lock := by
  rw [locks_setLock, if_pos rfl]

/-- A lock changes, and whoever holds it keeps it. -/
theorem Locked.setLock {h : Hub} (hl : Locked h) {l : LockId} (lock : FairLock SendId)
    (hbelow : l < h.nextLock) (hkeeps : ∀ i, h.Holds i l → lock.holder = some i) :
    Locked (h.setLock l lock) where
  known := hl.known
  sending := hl.sending
  table := hl.table
  used := hl.used
  shared := hl.shared
  held := by
    intro i m hi
    rw [locks_setLock]
    split
    · next heq => exact hkeeps i (heq ▸ hi)
    · exact hl.held i m hi
  fresh := by
    intro m hm
    rw [locks_setLock, if_neg (by rintro rfl; exact Nat.not_lt.mpr hm hbelow)]
    exact hl.fresh m hm

/-- A lock that nobody holds is given to someone. -/
theorem Locked.setLock_free {h : Hub} (hl : Locked h) {l : LockId} (lock : FairLock SendId)
    (hbelow : l < h.nextLock) (hfree : (h.locks l).holder = none) : Locked (h.setLock l lock) := by
  apply hl.setLock lock hbelow
  intro i hi
  have hheld := hl.held i l hi
  rw [hfree] at hheld
  cases hheld

theorem Locked.release {h : Hub} (hl : Locked h) {i : SendId} {l : LockId} (hbelow : l < h.nextLock) :
    Locked (h.release i l) := by
  -- Without its send first: then nobody else loses the lock.
  have hswap : h.release i l = (h.setSend i none).setLock l ((h.locks l).leave i) := rfl
  rw [hswap]
  apply (hl.setSend_none i).setLock _ hbelow
  intro j hj
  have hne : j ≠ i := by
    rintro rfl
    exact not_uses_none hj.uses
  exact FairLock.leave_holder (hl.held j l ((holds_setSend_ne hne).mp hj)) hne

theorem Locked.drop {h : Hub} (hl : Locked h) (i : SendId) : Locked (h.drop i) := by
  unfold Hub.drop
  split
  · next l hlock =>
    obtain ⟨send, hsend, huses⟩ := Option.bind_eq_some_iff.mp hlock
    exact hl.release (hl.used i l ⟨send, hsend, huses⟩).1
  · exact hl.setSend_none i

/-! ## Peers -/

theorem mem_forget {h : Hub} {p q : Peer} : q ∈ (h.forget p).clients ↔ q ∈ h.clients ∧ q ≠ p := by
  unfold forget
  rw [List.mem_filter, decide_eq_true_eq]

theorem table_forget (h : Hub) (p q : Peer) :
    (h.forget p).table q = if q = p then none else h.table q :=
  Function.update_apply h.table p none q

theorem Locked.forget {h : Hub} (hl : Locked h) (p : Peer) : Locked (h.forget p) where
  known := fun q hq => hl.known q (mem_forget.mp hq).1
  sending := hl.sending
  table := by
    intro q l hq
    rw [table_forget] at hq
    split at hq
    · cases hq
    · next hne => exact ⟨mem_forget.mpr ⟨(hl.table q l hq).1, hne⟩, (hl.table q l hq).2⟩
  used := by
    intro i l hi
    refine ⟨(hl.used i l hi).1, fun hclient => ?_⟩
    obtain ⟨hmem, hne⟩ := mem_forget.mp hclient
    rw [table_forget, if_neg hne]
    exact (hl.used i l hi).2 hmem
  shared := hl.shared
  held := hl.held
  fresh := hl.fresh

theorem Locked.setHandler {h : Hub} (hl : Locked h) (p : Peer) (stage : Option Handler) :
    Locked (h.setHandler p stage) :=
  ⟨hl.known, hl.sending, hl.table, hl.used, hl.shared, hl.held, hl.fresh⟩

theorem Locked.note {h : Hub} (hl : Locked h) (e : Entry) : Locked (h.note e) :=
  ⟨hl.known, hl.sending, hl.table, hl.used, hl.shared, hl.held, hl.fresh⟩

theorem Locked.setCasting {h : Hub} (hl : Locked h) (lock : FairLock CastId) :
    Locked { h with casting := lock } :=
  ⟨hl.known, hl.sending, hl.table, hl.used, hl.shared, hl.held, hl.fresh⟩

theorem Locked.setBuilt {h : Hub} (hl : Locked h) (n : Nat) : Locked { h with built := n } :=
  ⟨hl.known, hl.sending, hl.table, hl.used, hl.shared, hl.held, hl.fresh⟩

theorem Locked.close {h : Hub} (hl : Locked h) (p : Peer) : Locked (h.close p) :=
  (hl.forget p).setHandler p none

theorem Locked.resume {h : Hub} (hl : Locked h) (i : SendId) (sent : Bool) :
    Locked (h.resume i sent) := by
  unfold Hub.resume
  split
  · split
    · exact hl.setHandler _ _
    · exact hl.close _
  · exact hl.setHandler _ _
  · exact hl

/-- A peer connects that never did: no send is about it yet. -/
theorem Locked.accept {h : Hub} (hl : Locked h) {p : Peer} (hnew : p ∉ h.known) :
    Locked { h with clients := p :: h.clients, known := p :: h.known } where
  known := by
    intro q hq
    rcases List.mem_cons.mp hq with rfl | hq
    · exact List.mem_cons_self
    · exact List.mem_cons_of_mem _ (hl.known q hq)
  sending := fun i hi => List.mem_cons_of_mem _ (hl.sending i hi)
  table := by
    intro q l hq
    exact ⟨List.mem_cons_of_mem _ (hl.table q l hq).1, (hl.table q l hq).2⟩
  used := by
    intro i l hi
    refine ⟨(hl.used i l hi).1, fun hclient => ?_⟩
    rcases List.mem_cons.mp hclient with hsame | hclient
    · obtain ⟨send, hsend, -⟩ := hi
      refine absurd (hl.sending i ?_) (hsame ▸ hnew)
      rw [hsend]
      exact Option.some_ne_none send
    · exact (hl.used i l hi).2 hclient
  shared := hl.shared
  held := hl.held
  fresh := hl.fresh

theorem table_makeLock (h : Hub) (p q : Peer) :
    (h.makeLock p).table q = if q = p then some h.nextLock else h.table q :=
  Function.update_apply h.table p (some h.nextLock) q

theorem Locked.makeLock {h : Hub} (hl : Locked h) {p : Peer} (hclient : p ∈ h.clients)
    (hnone : h.table p = none) : Locked (h.makeLock p) where
  known := hl.known
  sending := hl.sending
  table := by
    intro q l hq
    rw [table_makeLock] at hq
    split at hq
    · next heq =>
      obtain rfl := Option.some.inj hq
      exact ⟨heq ▸ hclient, Nat.lt_succ_self _⟩
    · exact ⟨(hl.table q l hq).1, Nat.lt_succ_of_lt (hl.table q l hq).2⟩
  used := by
    intro i l hi
    obtain ⟨hbelow, hcurrent⟩ := hl.used i l hi
    refine ⟨Nat.lt_succ_of_lt hbelow, fun hmem => ?_⟩
    -- A send at a lock of a peer without one would have that lock in the table.
    have hne : i.2 ≠ p := by
      intro heq
      have hsome := hcurrent (heq ▸ hclient)
      rw [heq, hnone] at hsome
      cases hsome
    rw [table_makeLock, if_neg hne]
    exact hcurrent hmem
  shared := hl.shared
  held := hl.held
  fresh := fun l hle => hl.fresh l (Nat.le_of_succ_le hle)

/-- The lock of a connected peer is in the table, and is new if the peer had none. -/
theorem Locked.lockOf {h : Hub} (hl : Locked h) {p : Peer} (hclient : p ∈ h.clients) :
    Locked (h.lockOf p).2 ∧ (h.lockOf p).2.table p = some (h.lockOf p).1 := by
  unfold Hub.lockOf
  split
  · next l hsome => exact ⟨hl, hsome⟩
  · next hnone =>
    refine ⟨hl.makeLock hclient hnone, ?_⟩
    rw [table_makeLock, if_pos rfl]

@[simp] theorem clients_lockOf (h : Hub) (p : Peer) : (h.lockOf p).2.clients = h.clients := by
  unfold Hub.lockOf
  split <;> rfl

/-! ## Steps -/

theorem Locked.enter {h : Hub} (hl : Locked h) {i : SendId} (frame : Frame) {l : LockId}
    (hbelow : l < h.nextLock) (htable : i.2 ∈ h.clients → h.table i.2 = some l)
    (hholder : (h.locks l).holder = some i) : Locked (h.enter i frame l) := by
  unfold Hub.enter
  split
  · next hclient =>
    apply Locked.note
    apply hl.setSend_at frame rfl hclient (htable hclient)
    intro m hm
    rw [← Option.some.inj hm]
    exact hholder
  · exact (hl.release hbelow).resume i false

theorem Locked.sendState {h : Hub} (hl : Locked h) (i : SendId) (frame : Frame) :
    Locked (h.sendState i frame) := by
  unfold Hub.sendState
  split
  · next hclient =>
    obtain ⟨hl', htable⟩ := hl.lockOf hclient
    have hmem : i.2 ∈ (h.lockOf i.2).2.clients := by
      rw [clients_lockOf]
      exact hclient
    generalize h.lockOf i.2 = found at hl' htable hmem
    obtain ⟨l, h'⟩ := found
    dsimp only at hl' htable hmem ⊢
    have hbelow := (hl'.table i.2 l htable).2
    split
    · next hfree =>
      have hlocked := hl'.setLock_free ((h'.locks l).acquire i) hbelow
        (FairLock.holder_of_isFree hfree)
      apply hlocked.enter frame hbelow fun _ => htable
      rw [locks_setLock_self]
      exact FairLock.acquire_free hfree
    · have hlocked := hl'.setLock ((h'.locks l).acquire i) hbelow fun j hj =>
        FairLock.acquire_holder (hl'.held j l hj)
      apply hlocked.setSend_at frame rfl hmem htable
      intro m hm
      cases hm
  · exact (hl.setSend_none i).resume i false

theorem Locked.fanOut {h : Hub} (hl : Locked h) (b : CastId) (built : Bool) :
    Locked (h.fanOut b built) := by
  unfold Hub.fanOut
  split
  · exact hl.setCasting _
  · -- The new tasks are at no lock yet.
    have hold : ∀ {i : SendId} {l : LockId}, Hub.Uses { h with
        sends := fun i => if i.1 = .cast ∧ i.2 ∈ h.clients then some ⟨.state h.built, .created⟩
          else h.sends i
        built := h.built + 1 } i l → h.Uses i l := by
      rintro i l ⟨send, hsend, hlock⟩
      dsimp only at hsend
      split at hsend
      · obtain rfl := Option.some.inj hsend
        cases hlock
      · exact ⟨send, hsend, hlock⟩
    exact {
      known := hl.known
      sending := by
        intro i hi
        dsimp only at hi
        split at hi
        · next hcast => exact hl.known i.2 hcast.2
        · exact hl.sending i hi
      table := hl.table
      used := fun i l hi => hl.used i l (hold hi)
      shared := fun i j l m hij hi hj => hl.shared i j l m hij (hold hi) (hold hj)
      held := by
        rintro i l ⟨send, hsend, hheld⟩
        dsimp only at hsend
        split at hsend
        · obtain rfl := Option.some.inj hsend
          cases hheld
        · exact hl.held i l ⟨send, hsend, hheld⟩
      fresh := hl.fresh }

theorem Locked.connect {h : Hub} (hl : Locked h) (p : Peer) (built : Bool) :
    Locked (h.connect p built) := by
  unfold Hub.connect
  split
  · exact hl
  · next hnew =>
    have hadmitted := hl.accept hnew
    dsimp only
    split
    · exact ((hadmitted.setBuilt _).setHandler p _).sendState _ _
    · exact hadmitted.close p

/-- **Every step keeps the locks.** -/
theorem Locked.step {h : Hub} (hl : Locked h) (e : Event) : Locked (h.step e) := by
  unfold Hub.step
  cases e with
  | connect p built => exact hl.connect p built
  | start p =>
    dsimp only
    split
    · exact hl.sendState _ _
    · exact hl
  | wake i =>
    dsimp only
    split
    · next frame l hsend =>
      split
      · next hturn =>
        obtain ⟨hfree, hholder⟩ := FairLock.grant_holder hturn
        obtain ⟨hbelow, htable⟩ := hl.used i l ⟨_, hsend, rfl⟩
        apply (hl.setLock_free _ hbelow hfree).enter frame hbelow htable
        rw [locks_setLock_self]
        exact hholder
      · exact hl
    · exact hl
  | written i =>
    dsimp only
    split
    · exact ((hl.note _).drop i).resume i true
    · exact hl
  | failed i =>
    dsimp only
    split
    · next frame l hsend =>
      apply (hl.forget i.2).setSend_held frame (l := l) _ rfl
      exact ⟨_, hsend, rfl⟩
    · exact hl
  | closed i =>
    dsimp only
    split
    · exact (hl.drop i).resume i false
    · exact hl
  | cancel p => exact hl.drop _
  | receive p =>
    dsimp only
    split
    · exact hl.setHandler p _
    · exact hl
  | reply p requested =>
    dsimp only
    split
    · split
      · exact (hl.setHandler p _).sendState _ _
      · exact hl.setHandler p _
    · exact hl
  | disconnect p =>
    dsimp only
    split
    · exact hl.close p
    · exact hl
  | abort p =>
    dsimp only
    split
    · exact (hl.drop _).close p
    · exact hl
  | broadcast b built =>
    dsimp only
    split
    · exact hl
    · split
      · exact (hl.setCasting _).fanOut b built
      · exact hl.setCasting _
  | turn b built =>
    dsimp only
    split
    · exact (hl.setCasting _).fanOut b built
    · exact hl
  | abandon b =>
    dsimp only
    split
    · exact hl
    · exact hl.setCasting _
  | finish b =>
    dsimp only
    split
    · exact hl.setCasting _
    · exact hl

/-- Of the sends of a peer, one holds the lock at most. -/
theorem Locked.exclusive {h : Hub} (hl : Locked h) {i j : SendId} {l m : LockId} (hij : i.2 = j.2)
    (hi : h.Holds i l) (hj : h.Holds j m) : i = j := by
  obtain rfl := hl.shared i j l m hij hi.uses hj.uses
  exact Option.some.inj ((hl.held i l hi).symm.trans (hl.held j l hj))

end Hub

end InverterDashboard.WebSocket
