import Muxiva.Notify.Bus

/-! What holds of the bus between any two steps: a subscriber's messages are where its counters
say, a registered subscriber is never disconnected, and whoever publishes holds the lock. -/
set_option linter.all false
namespace Muxiva.Notify

variable {P : Type}

namespace Subscriber

/-- A subscriber's messages, with numbers below `published`, are where its counters say. -/
structure Sound (w : Subscriber P) (published : ℕ) : Prop where
  log : w.enqueuedLog = w.handledLog ++ w.handling.toList ++ w.mailbox
  counted : w.handledLog.length = w.delivered + w.handlerErrors + w.handlerPanics
  done : w.done = true → w.sender = false ∧ w.mailbox = [] ∧ w.handling = none
  ordered : (w.enqueuedLog.map (·.number)).Pairwise (· < ·)
  published : ∀ m ∈ w.enqueuedLog, m.number < published

variable {w w' : Subscriber P} {published : ℕ}

theorem new_sound (topic : String) (published : ℕ) : (new topic : Subscriber P).Sound published :=
  ⟨rfl, rfl, by simp [new], by simp [new], by simp [new]⟩

theorem Sound.mono {k : ℕ} (h : w.Sound published) (hk : published ≤ k) : w.Sound k :=
  { h with published := fun m hm => (h.published m hm).trans_le hk }

theorem Sound.close (h : w.Sound published) : w.close.Sound published :=
  { h with done := fun hd => ⟨rfl, (h.done hd).2⟩ }

theorem Sound.live (h : w.Sound published) (hopen : w.sender = true) : w.done = false := by
  cases hd : w.done with
  | false => rfl
  | true =>
    have hclosed := (h.done hd).1
    rw [hopen] at hclosed
    cases hclosed

/-- Every message put into the mailbox is counted, in the mailbox, or with the handler. -/
theorem Sound.length (h : w.Sound published) : w.enqueuedLog.length =
    w.delivered + w.handlerErrors + w.handlerPanics + w.mailbox.length +
      w.handling.toList.length := by
  have hcounted := h.counted
  rw [h.log, List.length_append, List.length_append]
  omega

theorem count_kept (outcome : HandlerOutcome) :
    (w.count outcome).topic = w.topic ∧ (w.count outcome).sender = w.sender ∧
      (w.count outcome).mailbox = w.mailbox ∧ (w.count outcome).done = w.done ∧
      (w.count outcome).enqueuedLog = w.enqueuedLog ∧
      (w.count outcome).handledLog = w.handledLog := by
  cases outcome <;> exact ⟨rfl, rfl, rfl, rfl, rfl, rfl⟩

theorem count_total (outcome : HandlerOutcome) :
    (w.count outcome).delivered + (w.count outcome).handlerErrors +
      (w.count outcome).handlerPanics = w.delivered + w.handlerErrors + w.handlerPanics + 1 := by
  cases outcome <;> simp only [count] <;> omega

/-- An open subscriber takes a message or has its mailbox full. -/
theorem Sound.trySend_cases (h : w.Sound published) (hopen : w.sender = true) (capacity : ℕ)
    (m : Notification P) :
    w.trySend capacity m = ({ w with droppedFull := w.droppedFull + 1 }, .full) ∨
      w.trySend capacity m =
        ({ w with mailbox := w.mailbox ++ [m], enqueuedLog := w.enqueuedLog ++ [m] }, .ok) := by
  unfold trySend
  rw [if_neg (by simp [h.live hopen])]
  split_ifs
  · exact .inl rfl
  · exact .inr rfl

theorem Sound.enqueue (h : w.Sound published) (hopen : w.sender = true) {m : Notification P}
    (hm : m.number < published) (hlast : ∀ m' ∈ w.enqueuedLog, m'.number < m.number) :
    Sound { w with mailbox := w.mailbox ++ [m], enqueuedLog := w.enqueuedLog ++ [m] } published where
  log := by simp [h.log]
  counted := h.counted
  done hd := by
    have hlive := h.live hopen
    simp only at hd
    rw [hlive] at hd
    cases hd
  ordered := by
    rw [List.map_append, List.pairwise_append]
    refine ⟨h.ordered, by simp, ?_⟩
    intro a ha b hb
    obtain ⟨m', hm', rfl⟩ := List.mem_map.mp ha
    simp only [List.map_cons, List.map_nil, List.mem_singleton] at hb
    rw [hb]
    exact hlast m' hm'
  published := by
    intro m' hm'
    rw [List.mem_append, List.mem_singleton] at hm'
    rcases hm' with hm' | rfl
    · exact h.published m' hm'
    · exact hm

/-- The worker moves messages from the mailbox to the handler and from there to the counters. -/
theorem Sound.work {outcome : HandlerOutcome} (h : w.Sound published)
    (hw : w.work outcome = some w') :
    w'.Sound published ∧ w'.sender = w.sender ∧ w'.enqueuedLog = w.enqueuedLog := by
  unfold Subscriber.work at hw
  split at hw
  · rename_i m hm
    cases hw
    have htotal := count_total (w := w) outcome
    have hcounted := h.counted
    obtain ⟨-, hsender, hmailbox, hdone, henqueued, -⟩ := count_kept (w := w) outcome
    refine ⟨⟨?_, ?_, ?_, ?_, ?_⟩, hsender, henqueued⟩
    · simp [henqueued, hmailbox, h.log, hm]
    · simp only [List.length_append, List.length_singleton]
      omega
    · intro hd
      have hnone := (h.done (hdone ▸ hd)).2.2
      rw [hm] at hnone
      cases hnone
    · simpa only [henqueued] using h.ordered
    · simpa only [henqueued] using h.published
  · rename_i hnone
    split at hw
    · rename_i m rest hmailbox
      cases hw
      refine ⟨⟨?_, h.counted, ?_, h.ordered, h.published⟩, rfl, rfl⟩
      · simp [h.log, hnone, hmailbox]
      · intro hd
        have hempty := (h.done hd).2.1
        rw [hmailbox] at hempty
        cases hempty
    · rename_i hmailbox
      split_ifs at hw with hend
      cases hw
      exact ⟨{ h with done := fun _ => ⟨hend.1, hmailbox, hnone⟩ }, rfl, rfl⟩

end Subscriber

namespace NotificationBus

/-- The messages put into a subscriber's mailbox so far. -/
def enqueued (s : NotificationBus P) (id : ℕ) : List (Notification P) :=
  (s.subscribers id).elim [] (·.enqueuedLog)

def mailbox (s : NotificationBus P) (id : ℕ) : List (Notification P) :=
  (s.subscribers id).elim [] (·.mailbox)

/-- The subscriber's sender has not been taken. -/
def Open (s : NotificationBus P) (id : ℕ) : Prop :=
  ∃ w, s.subscribers id = some w ∧ w.sender = true

/-- What the bus knows of its subscribers. -/
structure Registry (s : NotificationBus P) : Prop where
  started : ∀ id w, s.subscribers id = some w → id < s.nextId
  subscribers : ∀ id w, s.subscribers id = some w → w.Sound s.publications
  nodup : s.active.Nodup
  active : ∀ id ∈ s.active, id ∈ s.observations ∧ s.Open id
  retired : ∀ id ∈ s.retired, id ∈ s.observations
  observed : ∀ id ∈ s.observations, id < s.nextId
  stopped : s.stopped = true → s.active = []

/-- A caller inside the loop of `publish`. -/
structure Publishing (s : NotificationBus P) (n : ℕ) (notification : Notification P)
    (remaining : List ℕ) (report : PublishReport) : Prop where
  lock : s.lockHolder = some n
  registered : ∀ id ∈ remaining, id ∈ s.active
  nodup : remaining.Nodup
  number : notification.number < s.publications
  fresh : ∀ id ∈ remaining, ∀ m ∈ s.enqueued id, m.number < notification.number
  report : report.matched = report.enqueued + report.droppedFull

def Honest (s : NotificationBus P) : Answer → Prop
  | .published report => report.matched = report.enqueued + report.droppedFull
  | .unsubscribed id _ => id ∈ s.observations ∧ id ∉ s.active
  | .stopRequested _ | .stopEnded .. => s.stopped = true
  | _ => True

/-- What a caller knows where it is. -/
def Knows (s : NotificationBus P) (n : ℕ) : Caller P → Prop
  | .subscribeLocks id => id < s.nextId ∧ id ∉ s.observations ∧ s.Open id
  | .publishes notification remaining report => s.Publishing n notification remaining report
  | .unsubscribeLocks id => id ∈ s.observations
  | .stopReaps _ => s.stopped = true
  | .returned answer => s.Honest answer
  | _ => True

structure Sound (s : NotificationBus P) : Prop extends Registry s where
  callers : ∀ n, s.Knows n (s.callers n)
  apart : ∀ m n id, s.callers m = .subscribeLocks id → s.callers n = .subscribeLocks id → m = n

variable {s s' : NotificationBus P}

theorem new_sound : (new : NotificationBus P).Sound := by
  refine ⟨⟨?_, ?_, List.nodup_nil, ?_, ?_, ?_, ?_⟩, ?_, ?_⟩ <;> simp [new, Knows]

/-- What a step leaves of what the callers other than its own know. `joining` holds of the
subscriber that the step registers or gives up. -/
structure Leaves (s s' : NotificationBus P) (joining : ℕ → Prop) : Prop where
  nextId : s.nextId ≤ s'.nextId
  stopped : s.stopped = true → s'.stopped = true
  observations : ∀ id ∈ s.observations, id ∈ s'.observations
  observed : ∀ id ∈ s'.observations, id ∈ s.observations ∨ joining id
  active : ∀ id ∈ s'.active, id ∈ s.active ∨ joining id
  pending : ∀ id, id ∉ s.observations → ¬ joining id → s.Open id → s'.Open id

/-- A step that leaves a publication under way alone. -/
structure Undisturbed (s s' : NotificationBus P) : Prop where
  lock : s'.lockHolder = s.lockHolder
  active : s'.active = s.active
  publications : s'.publications = s.publications
  enqueued : ∀ id, s'.enqueued id = s.enqueued id

theorem Publishing.of_undisturbed {n : ℕ} {notification : Notification P} {remaining : List ℕ}
    {report : PublishReport} (h : s.Publishing n notification remaining report)
    (hu : Undisturbed s s') : s'.Publishing n notification remaining report where
  lock := hu.lock.trans h.lock
  registered := by
    rw [hu.active]
    exact h.registered
  nodup := h.nodup
  number := by
    rw [hu.publications]
    exact h.number
  fresh id hid := by
    rw [hu.enqueued id]
    exact h.fresh id hid
  report := h.report

/-- The other callers know what they knew. -/
theorem Knows.of_leaves {n : ℕ} {pc : Caller P} {joining : ℕ → Prop} (h : s.Knows n pc)
    (hl : Leaves s s' joining) (hfresh : ∀ id, joining id → id ∉ s.observations)
    (hother : ∀ id, pc = .subscribeLocks id → ¬ joining id)
    (hlock : s.lockHolder ≠ some n ∨ Undisturbed s s') : s'.Knows n pc := by
  cases pc with
  | subscribeLocks id =>
    obtain ⟨hid, hobs, hopen⟩ := h
    have hnot := hother id rfl
    refine ⟨hid.trans_le hl.nextId, fun hmem => ?_, hl.pending id hobs hnot hopen⟩
    exact (hl.observed id hmem).elim hobs hnot
  | publishes notification remaining report =>
    have hp : s.Publishing n notification remaining report := h
    rcases hlock with hlock | hu
    · exact absurd hp.lock hlock
    · exact hp.of_undisturbed hu
  | unsubscribeLocks id => exact hl.observations id h
  | stopReaps first => exact hl.stopped h
  | returned answer =>
    cases answer with
    | unsubscribed id removed =>
      obtain ⟨hobs, hactive⟩ := h
      refine ⟨hl.observations id hobs, fun hmem => ?_⟩
      exact (hl.active id hmem).elim hactive fun hj => hfresh id hj hobs
    | stopRequested first => exact hl.stopped h
    | stopEnded first total => exact hl.stopped h
    | _ => exact h
  | _ => trivial

/-- A caller's step keeps what the others know, if nobody else holds the lock or the step leaves
publications alone. -/
theorem Sound.of_caller (h : s.Sound) {n : ℕ} {pc : Caller P} (joining : ℕ → Prop)
    (hcallers : s'.callers = Function.update s.callers n pc) (hreg : s'.Registry)
    (hl : Leaves s s' joining)
    (hjoin : ∀ id, joining id → s.callers n = .subscribeLocks id)
    (hlock : (∀ m, m ≠ n → s.lockHolder ≠ some m) ∨ Undisturbed s s')
    (hmine : s'.Knows n pc)
    (hapart : ∀ id, pc = .subscribeLocks id → ∀ m, s.callers m ≠ .subscribeLocks id) :
    s'.Sound := by
  refine ⟨hreg, fun m => ?_, fun a b id ha hb => ?_⟩
  · by_cases hmn : m = n
    · rw [hcallers, hmn, Function.update_self]
      exact hmine
    · rw [hcallers, Function.update_of_ne hmn]
      refine (h.callers m).of_leaves hl (fun id hj => ?_) (fun id hpc hj => ?_) ?_
      · have hknows := h.callers n
        rw [hjoin id hj] at hknows
        exact hknows.2.1
      · exact hmn (h.apart m n id hpc (hjoin id hj))
      · exact hlock.imp_left fun hl => hl m hmn
  · rw [hcallers] at ha hb
    by_cases han : a = n
    · subst han
      rw [Function.update_self] at ha
      by_cases hbn : b = a
      · exact hbn.symm
      · rw [Function.update_of_ne hbn] at hb
        exact absurd hb (hapart id ha b)
    · rw [Function.update_of_ne han] at ha
      by_cases hbn : b = n
      · subst hbn
        rw [Function.update_self] at hb
        exact absurd ha (hapart id hb a)
      · rw [Function.update_of_ne hbn] at hb
        exact h.apart a b id ha hb

theorem Registry.of_same (h : s.Registry) (hid : s.nextId ≤ s'.nextId)
    (hpub : s.publications ≤ s'.publications) (hsub : s'.subscribers = s.subscribers)
    (hactive : s'.active = s.active) (hretired : s'.retired = s.retired)
    (hobs : s'.observations = s.observations) (hstopped : s'.stopped = s.stopped) :
    s'.Registry where
  started id w hw := by
    rw [hsub] at hw
    exact (h.started id w hw).trans_le hid
  subscribers id w hw := by
    rw [hsub] at hw
    exact (h.subscribers id w hw).mono hpub
  nodup := by
    rw [hactive]
    exact h.nodup
  active id hmem := by
    rw [hactive] at hmem
    unfold Open
    rw [hobs, hsub]
    exact h.active id hmem
  retired id hmem := by
    rw [hretired] at hmem
    rw [hobs]
    exact h.retired id hmem
  observed id hmem := by
    rw [hobs] at hmem
    exact (h.observed id hmem).trans_le hid
  stopped hs := by
    rw [hstopped] at hs
    rw [hactive]
    exact h.stopped hs

theorem Leaves.of_same (hid : s.nextId ≤ s'.nextId) (hsub : s'.subscribers = s.subscribers)
    (hactive : s'.active = s.active) (hobs : s'.observations = s.observations)
    (hstopped : s'.stopped = s.stopped) : Leaves s s' fun _ => False where
  nextId := hid
  stopped hs := by rw [hstopped, hs]
  observations id hmem := by rwa [hobs]
  observed id hmem := .inl (by rwa [← hobs])
  active id hmem := .inl (by rwa [← hactive])
  pending id _ _ hopen := by
    unfold Open
    rw [hsub]
    exact hopen

section Subscribers

variable {id : ℕ} {w : Subscriber P}

theorem open_setSubscriber (hkeep : s.Open id → w.sender = true) {id' : ℕ} (h : s.Open id') :
    (s.setSubscriber id w).Open id' := by
  by_cases hid : id' = id
  · subst hid
    exact ⟨w, by simp [setSubscriber], hkeep h⟩
  · obtain ⟨w', hw', hsender⟩ := h
    exact ⟨w', by simp [setSubscriber, hid, hw'], hsender⟩

theorem Registry.setSubscriber (h : s.Registry) (hid : id < s.nextId)
    (hw : w.Sound s.publications) (hkeep : s.Open id → w.sender = true) :
    (s.setSubscriber id w).Registry where
  started id' w' hw' := by
    by_cases hid' : id' = id
    · rw [hid']
      exact hid
    · exact h.started id' w' (by simpa [NotificationBus.setSubscriber, hid'] using hw')
  subscribers id' w' hw' := by
    by_cases hid' : id' = id
    · subst hid'
      simp only [NotificationBus.setSubscriber, Function.update_self, Option.some.injEq] at hw'
      subst hw'
      exact hw
    · exact h.subscribers id' w' (by simpa [NotificationBus.setSubscriber, hid'] using hw')
  nodup := h.nodup
  active id' hmem := ⟨(h.active id' hmem).1, open_setSubscriber hkeep (h.active id' hmem).2⟩
  retired := h.retired
  observed := h.observed
  stopped := h.stopped

theorem closeAll_subscriber {ids : List ℕ} (h : (s.closeAll ids).subscribers id = some w) :
    ∃ w', s.subscribers id = some w' ∧ (w = w' ∨ w = w'.close) := by
  simp only [closeAll] at h
  split_ifs at h
  · obtain ⟨w', hw', rfl⟩ := Option.map_eq_some_iff.mp h
    exact ⟨w', hw', .inr rfl⟩
  · exact ⟨w, h, .inl rfl⟩

theorem open_closeAll {ids : List ℕ} (hid : id ∉ ids) (h : s.Open id) :
    (s.closeAll ids).Open id := by
  obtain ⟨w, hw, hsender⟩ := h
  exact ⟨w, by simp [closeAll, hid, hw], hsender⟩

/-- Some subscribers, none of them still registered, have their senders taken. -/
theorem Registry.of_closeAll (h : s.Registry) (ids : List ℕ)
    (hsub : s'.subscribers = (s.closeAll ids).subscribers) (hactive : s'.active.Sublist s.active)
    (hout : ∀ id ∈ s'.active, id ∉ ids) (hretired : ∀ id ∈ s'.retired, id ∈ s.observations)
    (hobs : s'.observations = s.observations) (hid : s'.nextId = s.nextId)
    (hpub : s'.publications = s.publications) (hstopped : s'.stopped = true → s'.active = []) :
    s'.Registry where
  started id w hw := by
    rw [hsub] at hw
    obtain ⟨w', hw', -⟩ := closeAll_subscriber hw
    rw [hid]
    exact h.started id w' hw'
  subscribers id w hw := by
    rw [hsub] at hw
    rw [hpub]
    obtain ⟨w', hw', rfl | rfl⟩ := closeAll_subscriber hw
    · exact h.subscribers id w hw'
    · exact (h.subscribers id w' hw').close
  nodup := h.nodup.sublist hactive
  active id hmem := by
    obtain ⟨hobserved, hopen⟩ := h.active id (hactive.subset hmem)
    have hopen' := open_closeAll (hout id hmem) hopen
    unfold Open at hopen' ⊢
    rw [hobs, hsub]
    exact ⟨hobserved, hopen'⟩
  retired id hmem := by
    rw [hobs]
    exact hretired id hmem
  observed id hmem := by
    rw [hobs] at hmem
    rw [hid]
    exact h.observed id hmem
  stopped := hstopped

end Subscribers

section Operations

variable {n : ℕ}

theorem enqueued_setSubscriber (id id' : ℕ) (w : Subscriber P) :
    (s.setSubscriber id w).enqueued id' = if id' = id then w.enqueuedLog else s.enqueued id' := by
  unfold enqueued setSubscriber
  by_cases hid : id' = id <;> simp [hid]

/-- A worker that has not been started has been sent nothing. -/
theorem Registry.enqueued_next (h : s.Registry) : s.enqueued s.nextId = [] := by
  unfold enqueued
  cases hw : s.subscribers s.nextId with
  | none => rfl
  | some w => exact absurd (h.started _ w hw) (lt_irrefl _)

theorem start_sound (h : s.Sound) {operation : Operation P}
    (hs : s.start n operation = some s') : s'.Sound := by
  cases operation with
  | subscribe topic spawns =>
    simp only [start] at hs
    have hreg : ({ s with nextId := s.nextId + 1 } : NotificationBus P).Registry :=
      h.toRegistry.of_same (Nat.le_succ _) le_rfl rfl rfl rfl rfl rfl
    split_ifs at hs with hspawns
    · cases hs
      have hopen : s.Open s.nextId → (Subscriber.new topic : Subscriber P).sender = true :=
        fun _ => rfl
      have hnew := hreg.setSubscriber (Nat.lt_succ_self s.nextId)
        (Subscriber.new_sound topic _) fun _ => rfl
      refine @Sound.of_caller _ _ _ h n (.subscribeLocks s.nextId) (fun _ => False) rfl
        (hnew.of_same le_rfl le_rfl rfl rfl rfl rfl rfl)
        ⟨Nat.le_succ _, fun hs => hs, fun id hid => hid, fun id hid => .inl hid,
          fun id hid => .inl hid, fun id _ _ hid => open_setSubscriber hopen hid⟩
        (fun _ => False.elim) (.inr ⟨rfl, rfl, rfl, fun id => ?_⟩) ?_ ?_
      · have heq := enqueued_setSubscriber (s := s) s.nextId id (.new topic)
        have hnew := h.enqueued_next
        split_ifs at heq with hid
        · subst hid
          rw [hnew]
          exact heq
        · exact heq
      · refine ⟨Nat.lt_succ_self _, fun hmem => lt_irrefl _ (h.observed _ hmem), ?_⟩
        exact ⟨.new topic, by simp [moveTo, setSubscriber], rfl⟩
      · intro id hid m hm
        cases hid
        have hknows := h.callers m
        rw [hm] at hknows
        exact lt_irrefl _ hknows.1
    · cases hs
      exact h.of_caller (n := n) (fun _ => False) rfl (hreg.of_same le_rfl le_rfl rfl rfl rfl rfl rfl)
        (.of_same (Nat.le_succ _) rfl rfl rfl rfl) (fun _ => False.elim)
        (.inr ⟨rfl, rfl, rfl, fun _ => rfl⟩) trivial (fun _ hid => by cases hid)
  | unsubscribe id =>
    simp only [start] at hs
    split_ifs at hs with hid
    cases hs
    exact h.of_caller (n := n) (fun _ => False) rfl (h.toRegistry.of_same le_rfl le_rfl rfl rfl rfl rfl rfl)
      (.of_same le_rfl rfl rfl rfl rfl) (fun _ => False.elim)
      (.inr ⟨rfl, rfl, rfl, fun _ => rfl⟩) hid (fun _ hid => by cases hid)
  | _ =>
    cases hs
    exact h.of_caller (n := n) (fun _ => False) rfl (h.toRegistry.of_same le_rfl le_rfl rfl rfl rfl rfl rfl)
      (.of_same le_rfl rfl rfl rfl rfl) (fun _ => False.elim)
      (.inr ⟨rfl, rfl, rfl, fun _ => rfl⟩) trivial (fun _ hid => by cases hid)

theorem subscribe_sound (h : s.Sound) {id : ℕ} (hpc : s.callers n = .subscribeLocks id)
    (hfree : s.lockHolder = none) : (s.subscribe n id).Sound := by
  have hknows := h.callers n
  rw [hpc] at hknows
  obtain ⟨hid, hobs, hopen⟩ := hknows
  have hlock : ∀ m, m ≠ n → s.lockHolder ≠ some m := by simp [hfree]
  unfold subscribe
  split_ifs with hstopped
  · have hactive := h.stopped hstopped
    refine h.of_caller (n := n) (· = id) rfl
      (h.toRegistry.of_closeAll [id] rfl (List.Sublist.refl _) ?_ h.retired rfl rfl rfl
        h.stopped)
      ⟨le_rfl, fun hs => hs, fun i hi => hi, fun i hi => .inl hi, fun i hi => .inl hi, ?_⟩
      (fun i hi => by rw [hi, hpc]) (.inl hlock) trivial (fun _ hid => by cases hid)
    · intro i hi
      have : i ∈ s.active := hi
      simp [hactive] at this
    · intro i _ hi hio
      exact open_closeAll (by simpa using hi) hio
  · have hmem : ∀ i, i ∈ s.active.orderedInsert (· ≤ ·) id ↔ i = id ∨ i ∈ s.active :=
      fun i => List.mem_orderedInsert _
    have hnew : id ∉ s.active := fun hi => hobs (h.active id hi).1
    refine h.of_caller (n := n) (· = id) rfl ?_
      ⟨le_rfl, fun hs => hs, fun i hi => List.mem_append_left _ hi, ?_, ?_, fun i _ _ hi => hi⟩
      (fun i hi => by rw [hi, hpc]) (.inl hlock) trivial (fun _ hid => by cases hid)
    · refine ⟨h.started, h.subscribers, ?_, ?_, ?_, ?_, ?_⟩
      · exact (List.perm_orderedInsert _ id s.active).nodup_iff.mpr (h.nodup.cons hnew)
      · intro i hi
        rcases (hmem i).mp hi with rfl | hi
        · exact ⟨List.mem_append_right _ (List.mem_singleton_self _), hopen⟩
        · exact ⟨List.mem_append_left _ (h.active i hi).1, (h.active i hi).2⟩
      · exact fun i hi => List.mem_append_left _ (h.retired i hi)
      · intro i hi
        rcases List.mem_append.mp hi with hi | hi
        · exact h.observed i hi
        · rw [List.mem_singleton.mp hi]
          exact hid
      · exact fun hs => absurd hs hstopped
    · intro i hi
      exact (List.mem_append.mp hi).imp_right List.mem_singleton.mp
    · intro i hi
      exact ((hmem i).mp hi).symm

/-- A caller that only moves on, with what it knows there. -/
theorem Sound.of_same (h : s.Sound) {pc : Caller P}
    (hcallers : s'.callers = Function.update s.callers n pc)
    (hreg : s'.Registry) (hleaves : Leaves s s' fun _ => False)
    (hlock : ∀ m, m ≠ n → s.lockHolder ≠ some m) (hmine : s'.Knows n pc)
    (hpc : ∀ id, pc ≠ .subscribeLocks id) : s'.Sound :=
  h.of_caller (fun _ => False) hcallers hreg hleaves (fun _ => False.elim) (.inl hlock) hmine
    fun id hid => absurd hid (hpc id)

theorem publish_sound (h : s.Sound) (event : EventFrame P) (hfree : s.lockHolder = none) :
    (s.publish n event).Sound := by
  have hlock : ∀ m, m ≠ n → s.lockHolder ≠ some m := by simp [hfree]
  unfold publish
  split_ifs with hstopped
  · exact h.of_same (n := n) rfl (h.toRegistry.of_same le_rfl le_rfl rfl rfl rfl rfl rfl)
      (.of_same le_rfl rfl rfl rfl rfl) hlock trivial (by simp)
  · refine h.of_same (n := n) rfl
      (h.toRegistry.of_same le_rfl (Nat.le_succ _) rfl rfl rfl rfl rfl)
      (.of_same le_rfl rfl rfl rfl rfl) hlock ?_ (by simp)
    refine ⟨rfl, fun _ hid => hid, h.nodup, Nat.lt_succ_self _, fun id _ m hm => ?_, rfl⟩
    change m ∈ s.enqueued id at hm
    unfold enqueued at hm
    cases hw : s.subscribers id with
    | none => simp [hw] at hm
    | some w =>
      rw [hw] at hm
      exact (h.subscribers id w hw).published m hm

theorem unsubscribe_sound (h : s.Sound) {id : ℕ} (hpc : s.callers n = .unsubscribeLocks id)
    (hfree : s.lockHolder = none) : (s.unsubscribe n id).Sound := by
  have hlock : ∀ m, m ≠ n → s.lockHolder ≠ some m := by simp [hfree]
  have hobs := h.callers n
  rw [hpc] at hobs
  unfold unsubscribe
  split_ifs with hactive
  · have herase : ∀ i ∈ s.active.erase id, i ≠ id ∧ i ∈ s.active :=
      fun i hi => h.nodup.mem_erase_iff.mp hi
    refine h.of_same (n := n) rfl
      (h.toRegistry.of_closeAll [id] rfl List.erase_sublist ?_ ?_ rfl rfl rfl ?_)
      ⟨le_rfl, fun hs => hs, fun i hi => hi, fun i hi => .inl hi,
        fun i hi => .inl (herase i hi).2, ?_⟩ hlock ?_ (by simp)
    · intro i hi
      simpa using (herase i hi).1
    · intro i hi
      rcases List.mem_append.mp hi with hi | hi
      · exact h.retired i hi
      · rw [List.mem_singleton.mp hi]
        exact hobs
    · intro hs
      simp [h.stopped hs] at hactive
    · intro i hi _ hopen
      refine open_closeAll (fun hmem => ?_) hopen
      rw [List.mem_singleton.mp hmem] at hi
      exact hi hobs
    · exact ⟨hobs, fun hi => (herase id hi).1 rfl⟩
  · exact h.of_same (n := n) rfl (h.toRegistry.of_same le_rfl le_rfl rfl rfl rfl rfl rfl)
      (.of_same le_rfl rfl rfl rfl rfl) hlock ⟨hobs, hactive⟩ (by simp)

theorem requestStop_sound (h : s.Sound) (reaps : Bool) (hfree : s.lockHolder = none) :
    (s.requestStop n reaps).Sound := by
  have hlock : ∀ m, m ≠ n → s.lockHolder ≠ some m := by simp [hfree]
  refine h.of_same (n := n) rfl
    (h.toRegistry.of_closeAll s.active rfl (List.nil_sublist _) ?_ ?_ rfl rfl rfl
      fun _ => rfl)
    ⟨le_rfl, fun _ => rfl, fun i hi => hi, fun i hi => .inl hi, fun i hi => ?_, ?_⟩ hlock ?_ ?_
  · intro i hi
    cases hi
  · intro i hi
    rcases List.mem_append.mp hi with hi | hi
    · exact h.retired i hi
    · exact (h.active i hi).1
  · cases hi
  · exact fun i hi _ hopen => open_closeAll (fun hmem => hi (h.active i hmem).1) hopen
  · cases reaps <;> exact (rfl : (true : Bool) = true)
  · cases reaps <;> simp

theorem reap_sound (h : s.Sound) {first : Bool} (hpc : s.callers n = .stopReaps first)
    (hfree : s.lockHolder = none) : (s.reap n first).Sound := by
  have hlock : ∀ m, m ≠ n → s.lockHolder ≠ some m := by simp [hfree]
  have hstopped : s.stopped = true := by
    have hknows := h.callers n
    rwa [hpc] at hknows
  have hactive := h.stopped hstopped
  refine h.of_same (n := n) rfl
    (h.toRegistry.of_closeAll s.retired rfl (List.Sublist.refl _) ?_ ?_ rfl rfl rfl
      h.stopped)
    ⟨le_rfl, fun hs => hs, fun i hi => hi, fun i hi => .inl hi, fun i hi => .inl hi, ?_⟩ hlock
    hstopped (by simp)
  · intro i hi
    have hmem : i ∈ s.active := hi
    simp [hactive] at hmem
  · intro i hi
    cases hi
  · exact fun i hi _ hopen => open_closeAll (fun hmem => hi (h.retired i hmem)) hopen

/-- A turn of the loop in which the subscriber took the message or had its mailbox full. -/
theorem delivered_sound (h : s.Sound) {notification : Notification P} {id : ℕ} {rest : List ℕ}
    {report report' : PublishReport} {w : Subscriber P}
    (hp : s.Publishing n notification (id :: rest) report) (hw : w.Sound s.publications)
    (hopen : w.sender = true) (hreport : report'.matched = report'.enqueued + report'.droppedFull) :
    ((s.setSubscriber id w).moveTo n (.publishes notification rest report')).Sound := by
  obtain ⟨hnot, hnodup⟩ := List.nodup_cons.mp hp.nodup
  have hid : id < s.nextId := h.observed id (h.active id (hp.registered id List.mem_cons_self)).1
  have hreg := h.toRegistry.setSubscriber hid hw fun _ => hopen
  refine h.of_same (n := n) rfl (hreg.of_same le_rfl le_rfl rfl rfl rfl rfl rfl)
    ⟨le_rfl, fun hs => hs, fun i hi => hi, fun i hi => .inl hi, fun i hi => .inl hi,
      fun i _ _ hi => open_setSubscriber (fun _ => hopen) hi⟩ (fun m hm => ?_)
    ⟨hp.lock, fun i hi => hp.registered i (List.mem_cons_of_mem _ hi), hnodup, hp.number, ?_,
      hreport⟩ (by simp)
  · rw [hp.lock]
    exact fun heq => hm (Option.some.inj heq).symm
  · intro i hi m hm
    have hne : i ≠ id := by
      rintro rfl
      exact hnot hi
    have heq := enqueued_setSubscriber (s := s) id i w
    rw [if_neg hne] at heq
    exact hp.fresh i (List.mem_cons_of_mem _ hi) m (heq ▸ hm)

/-- One turn of the loop of `publish`. -/
theorem publishNext_sound (h : s.Sound) (capacity : ℕ) {notification : Notification P}
    {remaining : List ℕ} {report : PublishReport}
    (hpc : s.callers n = .publishes notification remaining report) :
    (s.publishNext capacity n notification remaining report).Sound := by
  have hp : s.Publishing n notification remaining report := by
    have hknows := h.callers n
    rwa [hpc] at hknows
  have hlock : ∀ m, m ≠ n → s.lockHolder ≠ some m := by
    intro m hm
    rw [hp.lock]
    exact fun heq => hm (Option.some.inj heq).symm
  cases remaining with
  | nil =>
    exact h.of_same (n := n) rfl (h.toRegistry.of_same le_rfl le_rfl rfl rfl rfl rfl rfl)
      (.of_same le_rfl rfl rfl rfl rfl) hlock hp.report (by simp)
  | cons id rest =>
    obtain ⟨w, hw, hopen⟩ := (h.active id (hp.registered id List.mem_cons_self)).2
    have hsound := h.subscribers id w hw
    obtain ⟨hnot, hnodup⟩ := List.nodup_cons.mp hp.nodup
    have hrest : s.Publishing n notification rest report :=
      { hp with
        registered := fun i hi => hp.registered i (List.mem_cons_of_mem _ hi)
        nodup := hnodup
        fresh := fun i hi => hp.fresh i (List.mem_cons_of_mem _ hi) }
    simp only [publishNext, hw]
    split_ifs with htopic hclosed
    · exact h.of_same (n := n) rfl (h.toRegistry.of_same le_rfl le_rfl rfl rfl rfl rfl rfl)
        (.of_same le_rfl rfl rfl rfl rfl) hlock { hrest with } (by simp)
    · rw [hopen] at hclosed
      cases hclosed
    · have hbalance := hp.report
      have hlast : ∀ m ∈ w.enqueuedLog, m.number < notification.number := by
        intro m hm
        apply hp.fresh id List.mem_cons_self m
        simpa [enqueued, hw] using hm
      rcases hsound.trySend_cases hopen capacity notification with heq | heq
      · rw [heq]
        refine delivered_sound h hp { hsound with } hopen ?_
        simp only [PublishReport.add]
        omega
      · rw [heq]
        refine delivered_sound h hp (hsound.enqueue hopen hp.number hlast) hopen ?_
        simp only [PublishReport.add]
        omega

theorem worker_sound (h : s.Sound) {id : ℕ} {outcome : HandlerOutcome} {w w' : Subscriber P}
    (hw : s.subscribers id = some w) (hwork : w.work outcome = some w') :
    (s.setSubscriber id w').Sound := by
  obtain ⟨hsound, hsender, hlog⟩ := (h.subscribers id w hw).work hwork
  have hkeep : s.Open id → w'.sender = true := by
    rintro ⟨w₀, hw₀, hopen⟩
    rw [hw] at hw₀
    cases hw₀
    rw [hsender, hopen]
  have hleaves : Leaves s (s.setSubscriber id w') fun _ => False :=
    ⟨le_rfl, fun hs => hs, fun i hi => hi, fun i hi => .inl hi, fun i hi => .inl hi,
      fun i _ _ hi => open_setSubscriber hkeep hi⟩
  have hquiet : Undisturbed s (s.setSubscriber id w') := by
    refine ⟨rfl, rfl, rfl, fun i => ?_⟩
    rw [enqueued_setSubscriber]
    split_ifs with hi
    · subst hi
      simp [enqueued, hw, hlog]
    · rfl
  exact ⟨h.toRegistry.setSubscriber (h.started id w hw) hsound hkeep,
    fun n => (h.callers n).of_leaves hleaves (fun _ => False.elim)
      (fun _ _ => not_false) (.inr hquiet), h.apart⟩

theorem step_sound (h : s.Sound) {capacity : ℕ} {a : Action P}
    (hs : s.step capacity a = some s') : s'.Sound := by
  cases a with
  | call n operation =>
    simp only [step] at hs
    split at hs
    · exact start_sound h hs
    · exact start_sound h hs
    · cases hs
  | caller n =>
    simp only [step, advance] at hs
    split at hs
    · rename_i hpc
      cases hs
      exact publishNext_sound h capacity hpc
    · cases hs
    · cases hs
    · rename_i hpc
      split_ifs at hs with hfree
      cases hs
      exact subscribe_sound h hpc hfree
    · split_ifs at hs with hfree
      cases hs
      exact publish_sound h _ hfree
    · rename_i hpc
      split_ifs at hs with hfree
      cases hs
      exact unsubscribe_sound h hpc hfree
    · split_ifs at hs with hfree
      cases hs
      exact requestStop_sound h _ hfree
    · rename_i hpc
      split_ifs at hs with hfree
      cases hs
      exact reap_sound h hpc hfree
  | worker id outcome =>
    obtain ⟨w, hw, hmap⟩ := Option.bind_eq_some_iff.mp hs
    obtain ⟨w', hwork, rfl⟩ := Option.map_eq_some_iff.mp hmap
    exact worker_sound h hw hwork

theorem sound {capacity : ℕ} (hr : (busSystem P capacity).Reachable s) : s.Sound := by
  refine hr.invariant (I := Sound) (fun s h => ?_) fun s a s' _ hi hs => step_sound hi hs
  rw [show s = .new from h]
  exact new_sound

end Operations

end NotificationBus

end Muxiva.Notify
