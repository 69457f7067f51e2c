import Muxiva.Agent.Stale

/-! The frames of a response. What is emitted or queued for a request is followed by what its
`executeRequest` may still add; a clearing of the queue leaves a beginning of it. -/
set_option linter.all false
namespace Muxiva.Agent

open Transition.System

inductive Kind where
  | started
  | text
  | event
  | completed
  | failed
  | cancelled
  deriving DecidableEq, Repr

def Frame.kind : Frame → Kind
  | .text _ _ => .text
  | .event type _ _ =>
    if type = "response.started" then .started
    else if type = "response.completed" then .completed
    else if type = "response.failed" then .failed
    else if type = "response.cancelled" then .cancelled
    else .event

/-- The driver's event does not use a name of the adapter's own. -/
def Action.foreign : Action → Bool
  | .sinkEvent _ type payload => (Frame.event type (.driver payload) 0).kind = .event
  | _ => true

/-! ### The grammar -/

/-- Text and events of the driver. -/
inductive Content : List Kind → Prop where
  | nil : Content []
  | text {ks : List Kind} (h : Content ks) : Content (.text :: ks)
  | event {ks : List Kind} (h : Content ks) : Content (.event :: ks)

inductive Ending : List Kind → Prop where
  | none : Ending []
  | completed : Ending [.completed]
  | cancelled : Ending [.cancelled]
  | failed : Ending [.failed]
  | apology : Ending [.failed, .text]

/-- A response that has not ended. -/
inductive Open : List Kind → Prop where
  | content {ks : List Kind} (h : Content ks) : Open ks
  | started {ks : List Kind} (h : Content ks) : Open (.started :: ks)

/-- At most one start, then content, then at most one end. -/
def Response (ks : List Kind) : Prop := ∃ body ending, Open body ∧ Ending ending ∧ ks = body ++ ending

theorem Content.append {ks ks' : List Kind} (h : Content ks) (h' : Content ks') :
    Content (ks ++ ks') := by
  induction h with
  | nil => exact h'
  | text _ ih => exact .text ih
  | event _ ih => exact .event ih

theorem Open.append {ks ks' : List Kind} (h : Open ks) (h' : Content ks') : Open (ks ++ ks') := by
  cases h with
  | content h => exact .content (h.append h')
  | started h => exact .started (h.append h')

theorem Content.of_append {ks ks' : List Kind} (h : Content (ks ++ ks')) : Content ks := by
  induction ks with
  | nil => exact .nil
  | cons k ks ih =>
    cases h with
    | text h => exact .text (ih h)
    | event h => exact .event (ih h)

theorem Open.of_append {ks ks' : List Kind} (h : Open (ks ++ ks')) : Open ks := by
  cases ks with
  | nil => exact .content .nil
  | cons k ks =>
    cases h with
    | content h =>
      have hcontent : Content ((k :: ks) ++ ks') := h
      exact .content hcontent.of_append
    | started h => exact .started h.of_append

theorem Open.response {ks : List Kind} (h : Open ks) : Response ks :=
  ⟨ks, [], h, .none, (List.append_nil ks).symm⟩

theorem Open.ends {ks : List Kind} {ending : List Kind} (h : Open ks) (he : Ending ending) :
    Response (ks ++ ending) :=
  ⟨ks, ending, h, he, rfl⟩

theorem Ending.of_append {ks ks' : List Kind} (h : Ending (ks ++ ks')) : Ending ks := by
  generalize he : ks ++ ks' = ending at h
  cases h with
  | none =>
    obtain ⟨rfl, -⟩ := List.append_eq_nil_iff.mp he
    exact .none
  | completed | cancelled | failed =>
    rcases List.append_eq_singleton_iff.mp he with ⟨rfl, -⟩ | ⟨rfl, -⟩
    · exact .none
    · constructor
  | apology =>
    rcases ks with - | ⟨k, ks⟩
    · exact .none
    · rw [List.cons_append, List.cons.injEq] at he
      obtain ⟨rfl, he⟩ := he
      rcases List.append_eq_singleton_iff.mp he with ⟨rfl, -⟩ | ⟨rfl, -⟩
      · exact .failed
      · exact .apology

/-- What is left when the end of the output is dropped. -/
theorem Response.of_append {ks ks' : List Kind} (h : Response (ks ++ ks')) : Response ks := by
  obtain ⟨body, ending, hbody, hending, heq⟩ := h
  rcases List.append_eq_append_iff.mp heq with ⟨rest, rfl, -⟩ | ⟨rest, rfl, rfl⟩
  · exact hbody.of_append.response
  · exact hbody.ends hending.of_append

namespace Adapter

variable {c : Config} {s s' : Adapter} {r : ℕ}

/-- The kinds of a request's items. -/
def kinds (items : List Item) (r : ℕ) : List Kind :=
  (items.filter (·.request = r)).map (·.frame.kind)

theorem kinds_append (items items' : List Item) (r : ℕ) :
    kinds (items ++ items') r = kinds items r ++ kinds items' r := by
  unfold kinds
  rw [List.filter_append, List.map_append]

theorem kinds_singleton_self (item : Item) : kinds [item] item.request = [item.frame.kind] := by
  simp [kinds]

theorem kinds_singleton_of_ne {item : Item} (h : item.request ≠ r) : kinds [item] r = [] := by
  simp [kinds, h]

theorem kinds_eq_nil {items : List Item} (h : ∀ item ∈ items, item.request ≠ r) :
    kinds items r = [] := by
  unfold kinds
  rw [List.filter_eq_nil_iff.mpr (fun item hitem => by simpa using h item hitem), List.map_nil]

def output (s : Adapter) : List Item := s.emitted ++ s.queue

/-- The output is in order and every response is well formed so far. -/
structure Formed (s : Adapter) : Prop where
  ordered : (s.output.map (·.request)).Pairwise (· ≤ ·)
  begun : ∀ item ∈ s.output, Phase.begun (s.requests item.request).phase
  response : ∀ r, Response (kinds s.output r)

/-- Moreover the response of the executing request is open until it is cancelled. -/
structure Grammatical (s : Adapter) : Prop extends Formed s where
  live : ∀ r, (s.requests r).phase = .executing → ¬(s.requests r).cancelled →
    Open (kinds s.output r)

theorem formed_new : Grammatical .new := by
  refine ⟨⟨List.Pairwise.nil, nofun, fun r => (Open.content .nil).response⟩, ?_⟩
  intro r h
  cases h

theorem Formed.frame (h : Formed s) (houtput : s'.output = s.output)
    (hphase : ∀ r, Phase.begun (s.requests r).phase → Phase.begun (s'.requests r).phase) :
    Formed s' := by
  refine ⟨houtput ▸ h.ordered, ?_, houtput ▸ h.response⟩
  rw [houtput]
  intro item hitem
  exact hphase _ (h.begun item hitem)

theorem Grammatical.frame (h : Grammatical s) (houtput : s'.output = s.output)
    (hphase : ∀ r, (s'.requests r).phase = (s.requests r).phase)
    (hcancelled : ∀ r, (s.requests r).cancelled → (s'.requests r).cancelled) :
    Grammatical s' := by
  refine ⟨h.toFormed.frame houtput fun r hr => (hphase r).symm ▸ hr, ?_⟩
  intro r hr hlive
  rw [hphase] at hr
  rw [houtput]
  exact h.live r hr fun hc => hlive (hcancelled r hc)

theorem Grammatical.keeps (h : Grammatical s) (hk : Leaves s s') (hqueue : s'.queue = s.queue) :
    Grammatical s' := by
  apply h.frame
  · unfold output
    rw [hk.emitted, hqueue]
  · exact fun r => (hk.requests r).phase
  · exact fun r => (hk.requests r).cancelled

/-- The queue is cleared for an item of the last request begun. -/
theorem Formed.replace (h : Formed s) (hchain : Chained s) (item : Item)
    (hemitted : s'.emitted = s.emitted) (hqueue : s'.queue = [item])
    (hphase : ∀ r, (s'.requests r).phase = (s.requests r).phase) (hitem : item.request = s.begun)
    (hbegun : Phase.begun (s.requests item.request).phase)
    (hresponse : Response (kinds s.emitted item.request ++ [item.frame.kind])) : Formed s' := by
  have houtput : s'.output = s.emitted ++ [item] := by
    unfold output
    rw [hemitted, hqueue]
  have hold : ∀ item ∈ s.emitted, item ∈ s.output := fun item => List.mem_append_left _
  refine ⟨?_, ?_, ?_⟩
  · have hordered := h.ordered
    unfold output at hordered
    rw [List.map_append, List.pairwise_append] at hordered
    rw [houtput, List.map_append, List.pairwise_append]
    refine ⟨hordered.1, List.pairwise_singleton _ _, ?_⟩
    intro r hr r' hr'
    obtain ⟨old, hmem, rfl⟩ := List.mem_map.mp hr
    rw [List.map_singleton, List.mem_singleton] at hr'
    rw [hr', hitem]
    exact ((hchain.begun _).mp (h.begun old (hold old hmem))).2
  · rw [houtput]
    intro new hnew
    rw [hphase]
    rcases List.mem_append.mp hnew with hnew | hnew
    · exact h.begun new (hold new hnew)
    · rw [List.mem_singleton.mp hnew]
      exact hbegun
  · intro r
    rw [houtput, kinds_append]
    by_cases hr : item.request = r
    · subst hr
      rw [kinds_singleton_self]
      exact hresponse
    · rw [kinds_singleton_of_ne hr, List.append_nil]
      have hresponse := h.response r
      unfold output at hresponse
      rw [kinds_append] at hresponse
      exact hresponse.of_append

theorem Formed.append (h : Formed s) (hchain : Chained s) (item : Item)
    (hemitted : s'.emitted = s.emitted) (hqueue : s'.queue = s.queue ++ [item])
    (hphase : ∀ r, (s'.requests r).phase = (s.requests r).phase) (hitem : item.request = s.begun)
    (hbegun : Phase.begun (s.requests item.request).phase)
    (hresponse : Response (kinds s.output item.request ++ [item.frame.kind])) : Formed s' := by
  have houtput : s'.output = s.output ++ [item] := by
    unfold output
    rw [hemitted, hqueue, List.append_assoc]
  refine ⟨?_, ?_, ?_⟩
  · rw [houtput, List.map_append, List.pairwise_append]
    refine ⟨h.ordered, List.pairwise_singleton _ _, ?_⟩
    intro r hr r' hr'
    obtain ⟨old, hmem, rfl⟩ := List.mem_map.mp hr
    rw [List.map_singleton, List.mem_singleton] at hr'
    rw [hr', hitem]
    exact ((hchain.begun _).mp (h.begun old hmem)).2
  · rw [houtput]
    intro new hnew
    rw [hphase]
    rcases List.mem_append.mp hnew with hnew | hnew
    · exact h.begun new hnew
    · rw [List.mem_singleton.mp hnew]
      exact hbegun
  · intro r
    rw [houtput, kinds_append]
    by_cases hr : item.request = r
    · subst hr
      rw [kinds_singleton_self]
      exact hresponse
    · rw [kinds_singleton_of_ne hr, List.append_nil]
      exact h.response r

/-- An item for the executing request: a full queue ends the response with a failure. -/
theorem Formed.enqueue (h : Formed s) (hchain : Chained s) (hr : (s.requests r).phase = .executing)
    (port : Port) (frame : Frame) (hopen : ¬(s.requests r).cancelled → Open (kinds s.emitted r))
    (hresponse : ¬(s.requests r).cancelled → Response (kinds s.output r ++ [frame.kind])) :
    Formed (s.enqueue c r port frame) := by
  have hk := (keeps_enqueue (c := c) (s := s) r port frame).toLeaves
  have hphase := fun r => (hk.requests r).phase
  have hemitted := hk.emitted
  have hlast := hchain.eq_begun hr
  have hbegun : Phase.begun (s.requests r).phase := by
    rw [hr]
    trivial
  unfold Adapter.enqueue at hphase hemitted ⊢
  split_ifs at hphase hemitted ⊢ with hoff hfull
  · exact h
  · simp only [Bool.or_eq_true, not_or] at hoff
    exact h.replace hchain (overflowItem c r frame) hemitted rfl hphase hlast hbegun
      ((hopen hoff.1).ends .failed)
  · simp only [Bool.or_eq_true, not_or] at hoff
    exact h.append hchain ⟨port, frame, r, none⟩ hemitted rfl hphase hlast hbegun
      (hresponse hoff.1)

theorem Grammatical.open_emitted (h : Grammatical s) (hr : (s.requests r).phase = .executing)
    (hlive : ¬(s.requests r).cancelled) : Open (kinds s.emitted r) := by
  have hopen := h.live r hr hlive
  unfold output at hopen
  rw [kinds_append] at hopen
  exact hopen.of_append

/-- What the output of the executing request is after one more item. -/
theorem kinds_enqueue (port : Port) (frame : Frame)
    (hlive : ¬((s.enqueue c r port frame).requests r).cancelled) (hopen : s.closed = false) :
    kinds (s.enqueue c r port frame).output r = kinds s.output r ++ [frame.kind] := by
  have hk := keeps_enqueue (c := c) (s := s) r port frame
  have hcancelled : ¬(s.requests r).cancelled := fun hc => hlive ((hk.requests r).cancelled hc)
  have hon : ¬((s.requests r).cancelled || s.closed) = true := by
    rw [hopen, Bool.or_false]
    exact hcancelled
  unfold Adapter.enqueue at hlive ⊢
  rw [if_neg hon] at hlive ⊢
  split_ifs at hlive ⊢ with hfull
  · exfalso
    apply hlive
    have hk' := (keeps_abortActive (s := s.update r ({ · with cancelled := true }))).requests r
    rw [requests_update_self] at hk'
    exact hk'.cancelled rfl
  · unfold output
    dsimp only
    rw [← List.append_assoc, kinds_append]
    congr 1
    exact kinds_singleton_self ⟨port, frame, r, none⟩

theorem enqueue_of_closed (h : s.closed = true) (r : ℕ) (port : Port) (frame : Frame) :
    s.enqueue c r port frame = s := by
  unfold enqueue
  rw [h, Bool.or_true, if_pos rfl]

theorem Grammatical.enqueue (h : Grammatical s) (hchain : Chained s)
    (hr : (s.requests r).phase = .executing) (port : Port) {frame : Frame}
    (hcontent : Content [frame.kind]) : Grammatical (s.enqueue c r port frame) := by
  cases hclosed : s.closed with
  | true =>
    rw [enqueue_of_closed hclosed]
    exact h
  | false =>
    refine ⟨h.toFormed.enqueue hchain hr port frame (h.open_emitted hr) ?_, ?_⟩
    · intro hlive
      exact ((h.live r hr hlive).append hcontent).response
    · intro r' hr' hlive
      have hk := (keeps_enqueue (c := c) (s := s) r port frame).requests
      rw [(hk r').phase] at hr'
      obtain rfl := hchain.unique hr hr'
      rw [kinds_enqueue port frame hlive hclosed]
      exact (h.live r hr fun hc => hlive ((hk r).cancelled hc)).append hcontent

theorem Grammatical.update (h : Grammatical s) {f : Request → Request}
    (hphase : (f (s.requests r)).phase = (s.requests r).phase)
    (hcancelled : (s.requests r).cancelled → (f (s.requests r)).cancelled) :
    Grammatical (s.update r f) := by
  refine h.frame rfl ?_ ?_
  · intro r'
    rw [requests_update]
    split_ifs with hr
    · rw [hphase, hr]
    · rfl
  · intro r'
    rw [requests_update]
    split_ifs with hr
    · subst hr
      exact hcancelled
    · exact id

theorem Grammatical.sinkText (h : Grammatical s) (hchain : Chained s) (r : ℕ) (delta : Text) :
    Grammatical (s.sinkText c r delta) := by
  unfold Adapter.sinkText
  dsimp only
  split_ifs with hoff hempty
  · exact h
  · exact h
  · simp only [Bool.or_eq_true, Bool.not_eq_true', not_or, Bool.not_eq_false] at hoff
    have hr := hchain.accepting r hoff.1
    apply Grammatical.enqueue
    · exact h.update rfl id
    · exact hchain.update rfl (hchain.accepting r) rfl rfl
    · rw [requests_update_self]
      exact hr
    · exact .text .nil

theorem Grammatical.sinkEvent (h : Grammatical s) (hchain : Chained s) (r : ℕ) (type : String)
    {payload : Text} (hforeign : ∀ sequence,
      (Frame.event type (.driver payload) sequence).kind = .event) :
    Grammatical (s.sinkEvent c r type payload) := by
  unfold Adapter.sinkEvent
  dsimp only
  split_ifs with hoff
  · exact h
  · simp only [Bool.or_eq_true, Bool.not_eq_true', not_or, Bool.not_eq_false] at hoff
    have hr := hchain.accepting r hoff.1
    apply Grammatical.enqueue
    · exact h.update rfl id
    · exact hchain.update rfl (hchain.accepting r) rfl rfl
    · rw [requests_update_self]
      exact hr
    · rw [hforeign]
      exact .event .nil

theorem Formed.clear (h : Formed s) (hemitted : s'.emitted = s.emitted) (hqueue : s'.queue = [])
    (hphase : ∀ r, (s'.requests r).phase = (s.requests r).phase) : Formed s' := by
  have houtput : s'.output = s.emitted := by
    unfold output
    rw [hemitted, hqueue, List.append_nil]
  have hordered := h.ordered
  unfold output at hordered
  rw [List.map_append, List.pairwise_append] at hordered
  refine ⟨houtput ▸ hordered.1, ?_, ?_⟩
  · rw [houtput]
    intro item hitem
    rw [hphase]
    exact h.begun item (List.mem_append_left _ hitem)
  · intro r
    have hresponse := h.response r
    unfold output at hresponse
    rw [kinds_append] at hresponse
    rw [houtput]
    exact hresponse.of_append

theorem cancel_queue (reason : Text) (sequence : ℕ) : (s.cancel reason sequence).queue =
    if s.hadActiveRequest then [⟨.eventOut, .event "response.cancelled" (.reason reason) sequence,
      s.activeRequest.getD 0, some (s.cancels + 1)⟩] else [] :=
  rfl

/-- A cancelled response ends with its event, whatever was still queued. -/
theorem Grammatical.cancel (h : Grammatical s) (hchain : Chained s) (hhost : s.interrupted = none)
    (reason : Text) (sequence : ℕ) : Grammatical (s.cancel reason sequence) := by
  have hafter := hchain.cancel hhost reason sequence
  have hk : Leaves s (if s.hadActiveRequest then s.cancelActive else s) := by
    split_ifs
    · exact keeps_cancelActive.toLeaves
    · exact .refl s
  have hphase : ∀ r, ((s.cancel reason sequence).requests r).phase = (s.requests r).phase :=
    fun r => (hk.requests r).phase
  have hemitted : (s.cancel reason sequence).emitted = s.emitted := hk.emitted
  refine ⟨?_, ?_⟩
  · by_cases hhad : s.hadActiveRequest = true
    · obtain ⟨a, ha, hlive⟩ := (Option.any_eq_true _ _).mp hhad
      obtain ⟨hexecuting, hrequest⟩ := hchain.active a ha
      have hflag : ¬(s.requests a).cancelled := by
        intro hcancelled
        rw [hchain.flagged a ha hcancelled] at hlive
        cases hlive
      have hqueue : (s.cancel reason sequence).queue = [⟨.eventOut,
          .event "response.cancelled" (.reason reason) sequence, a, some (s.cancels + 1)⟩] := by
        rw [cancel_queue, if_pos hhad, hrequest]
        rfl
      refine h.toFormed.replace hchain _ hemitted hqueue hphase (hchain.eq_begun hexecuting) ?_
        ((h.open_emitted hexecuting hflag).ends .cancelled)
      rw [hexecuting]
      trivial
    · have hqueue : (s.cancel reason sequence).queue = [] := by
        rw [cancel_queue, if_neg hhad]
      exact h.toFormed.clear hemitted hqueue hphase
  · intro r hr hlive
    have hactive := (hafter.unflagged r hr hlive).1
    cases hactive

theorem Grammatical.drain (h : Grammatical s) : Grammatical (s.drain c) := by
  refine h.frame ?_ (fun _ => rfl) fun _ => id
  unfold output Adapter.drain
  dsimp only
  rw [List.append_assoc, List.take_append_drop]

theorem Grammatical.start (h : Grammatical s) (hchain : Chained s) (text : Text) (sequence : ℕ) :
    Grammatical (s.start text sequence) := by
  have hnew := (hchain.submitted (s.nextRequestId + 1)).mpr (.inr (Nat.lt_succ_self _))
  unfold Adapter.start
  dsimp only
  split_ifs
  · exact h
  · refine ⟨h.toFormed.frame rfl ?_, ?_⟩
    · intro r hr
      have hne : r ≠ s.nextRequestId + 1 := by
        rintro rfl
        rw [hnew] at hr
        exact hr
      rw [requests_update_of_ne hne]
      exact hr
    · intro r
      by_cases hne : r = s.nextRequestId + 1
      · subst hne
        rw [requests_update_self]
        intro hr
        cases hr
      · rw [requests_update_of_ne hne]
        exact h.live r

/-- Nothing has been put out for a request that has not begun. -/
theorem Formed.kinds_waiting (h : Formed s) (hr : (s.requests r).phase = .waiting) :
    kinds s.output r = [] := by
  apply kinds_eq_nil
  rintro item hitem rfl
  have hbegun := h.begun item hitem
  rw [hr] at hbegun
  exact hbegun

theorem Grammatical.begins (h : Grammatical s) (hchain : Chained s) (hnext : s.next r)
    (houtput : s'.output = s.output) (hphase : Phase.begun (s'.requests r).phase)
    (hothers : ∀ r', r' ≠ r → s'.requests r' = s.requests r') : Grammatical s' := by
  have hwaiting : (s.requests r).phase = .waiting := by
    simp only [Adapter.next, Bool.and_eq_true, decide_eq_true_eq] at hnext
    exact hnext.1
  refine ⟨h.toFormed.frame houtput ?_, ?_⟩
  · intro r' hr'
    by_cases hne : r' = r
    · subst hne
      exact hphase
    · rw [hothers r' hne]
      exact hr'
  · intro r' hr' hlive
    by_cases hne : r' = r
    · subst hne
      rw [houtput, h.toFormed.kinds_waiting hwaiting]
      exact .content .nil
    · rw [hothers r' hne] at hr'
      exact absurd hr' (hchain.idle hnext r')

theorem Grammatical.returns (h : Grammatical s) (hchain : Chained s) (hnext : s.next r) :
    Grammatical (s.returns r) := by
  unfold Adapter.returns
  refine h.begins hchain hnext rfl ?_ fun r' hne => ?_
  · rw [requests_update_self]
    trivial
  · rw [requests_update_of_ne hne]

theorem Grammatical.enter (h : Grammatical s) (hchain : Chained s) (hnext : s.next r) :
    Grammatical ({ s with begun := r }.enter c r) := by
  have hwaiting : (s.requests r).phase = .waiting := by
    simp only [Adapter.next, Bool.and_eq_true, decide_eq_true_eq] at hnext
    exact hnext.1
  have hnone := h.toFormed.kinds_waiting hwaiting
  have hemitted : kinds s.emitted r = [] := by
    unfold output at hnone
    rw [kinds_append, List.append_eq_nil_iff] at hnone
    exact hnone.1
  unfold Adapter.enter
  generalize hstart : Adapter.update { s with
    begun := r
    activeController := some r
    activeRequest := some r
    activeDriver := some s.driver
    driverBusy := true } r (fun q => { q with
      phase := .executing
      driver := s.driver
      epoch := s.driverEpoch }) = t
  have hothers : ∀ r', r' ≠ r → t.requests r' = s.requests r' := by
    intro r' hne
    rw [← hstart, requests_update_of_ne hne]
  have hexecuting : (t.requests r).phase = .executing := by
    rw [← hstart, requests_update_self]
  have hflags : (t.requests r).cancelled = false ∧ (t.requests r).aborted = false := by
    rw [← hstart, requests_update_self]
    exact hchain.waiting r hwaiting
  have hactive : t.activeController = some r ∧ t.activeRequest = some r := by
    rw [← hstart]
    exact ⟨rfl, rfl⟩
  have hbegun : Phase.begun (t.requests r).phase := by
    rw [hexecuting]
    trivial
  have houtput : t.output = s.output := by rw [← hstart]; rfl
  have ht : Grammatical t := h.begins hchain hnext houtput hbegun hothers
  have htchain : Chained t := by
    refine hchain.begins hnext (by rw [← hstart]; rfl) (by rw [← hstart]; rfl) hbegun hothers
      (fun _ => hexecuting) (.inr ⟨hactive.1, hactive.2, hexecuting⟩) ?_ ?_
    · intro _ hcancelled
      rw [hflags.1] at hcancelled
      cases hcancelled
    · intro _ _
      refine ⟨hactive.1, ?_⟩
      intro haborted
      rw [hflags.2] at haborted
      cases haborted
  have hopen : kinds t.output r = [] := houtput ▸ hnone
  apply Grammatical.update
  · cases hclosed : t.closed with
    | true =>
      rw [enqueue_of_closed hclosed]
      exact ht
    | false =>
      have hqueued : kinds t.emitted r = [] := by
        unfold output at hopen
        rw [kinds_append, List.append_eq_nil_iff] at hopen
        exact hopen.1
      refine ⟨ht.toFormed.enqueue htchain hexecuting _ _ ?_ ?_, ?_⟩
      · intro _
        rw [hqueued]
        exact .content .nil
      · intro _
        rw [hopen]
        exact (Open.started .nil).response
      · intro r' hr' hlive
        have hk := (keeps_enqueue (c := c) (s := t) r .eventOut
          (.event "response.started" .none (s.requests r).sequence)).requests
        rw [(hk r').phase] at hr'
        obtain rfl := htchain.unique hexecuting hr'
        rw [kinds_enqueue _ _ hlive hclosed, hopen]
        exact .started .nil
  · rfl
  · exact id

theorem Grammatical.begin (h : Grammatical s) (hchain : Chained s) {created : Bool} {route : Route}
    (hs : s.begin c r created route = some s') : Grammatical s' := by
  have hroutes : ∀ {t : Adapter}, Grammatical t → Chained t → Grammatical (t.routes c r route) := by
    intro t ht hchain
    unfold Adapter.routes
    cases route with
    | none => exact ht.update rfl id
    | selected payload =>
      exact (ht.sinkEvent hchain r "route.selected" (fun _ => rfl)).update rfl id
    | fails error => exact ht.update rfl id
  unfold Adapter.begin at hs
  split_ifs at hs with hnext hoff hbusy
  · cases hs
    exact h.returns hchain hnext
  · have hrotated := h.keeps (leaves_rotateDriver created) (queue_rotateDriver created)
    have hchained := hchain.rotateDriver created
    have hnext' : (s.rotateDriver created).1.next r := by
      unfold Adapter.next
      rw [rotateDriver_requests]
      exact hnext
    dsimp only at hs
    split_ifs at hs
    · cases hs
      exact hroutes (hrotated.enter hchained hnext') (hchained.enter hnext')
    · cases hs
      exact hrotated.returns hchained hnext'
  · dsimp only at hs
    rw [if_pos rfl] at hs
    cases hs
    exact hroutes (h.enter hchain hnext) (hchain.enter hnext)

/-- A failure, and the text that may go with it, end the response. -/
theorem Grammatical.fail (h : Grammatical s) (hchain : Chained s)
    (hr : (s.requests r).phase = .executing) (rotates created : Bool) (payload : Payload)
    (message : Text) : Formed (s.fail c r rotates created payload message) := by
  unfold Adapter.fail
  have hrotated : Grammatical (if rotates then s.rotateDriver created else (s, true)).1 ∧
      Chained (if rotates then s.rotateDriver created else (s, true)).1 ∧
      ((if rotates then s.rotateDriver created else (s, true)).1.requests r).phase =
        .executing := by
    split_ifs
    · rw [rotateDriver_requests]
      exact ⟨h.keeps (leaves_rotateDriver created) (queue_rotateDriver created),
        hchain.rotateDriver created, hr⟩
    · exact ⟨h, hchain, hr⟩
  obtain ⟨h, hchain, hr⟩ := hrotated
  generalize (if rotates then s.rotateDriver created else (s, true)) = rotated at *
  obtain ⟨t, made⟩ := rotated
  have hfailed : ∀ sequence, Formed (t.enqueue c r .eventOut
      (.event "response.failed" payload sequence)) := fun sequence =>
    h.toFormed.enqueue hchain hr _ _ (h.open_emitted hr) fun hlive => (h.live r hr hlive).ends .failed
  dsimp only
  split_ifs
  · exact hfailed _
  · cases hclosed : t.closed with
    | true =>
      rw [enqueue_of_closed hclosed, enqueue_of_closed hclosed]
      exact h.toFormed
    | false =>
      have hk := keeps_enqueue (c := c) (s := t) r .eventOut
        (.event "response.failed" payload (s.requests r).sequence)
      apply (hfailed _).enqueue (hchain.enqueue hr _ _)
      · rw [phase_enqueue]
        exact hr
      · intro hlive
        rw [hk.emitted]
        exact h.open_emitted hr fun hc => hlive ((hk.requests r).cancelled hc)
      · intro hlive
        rw [kinds_enqueue _ _ hlive hclosed, List.append_assoc]
        exact (h.live r hr fun hc => hlive ((hk.requests r).cancelled hc)).ends .apology
  · exact h.toFormed

theorem Grammatical.conclude (h : Grammatical s) (hchain : Chained s)
    (hr : (s.requests r).phase = .executing) (outcome : Outcome) (created : Bool) :
    Formed (s.conclude c r outcome created) := by
  unfold Adapter.conclude
  have hstops : Grammatical (s.update r ({ · with accepting := false })) := h.update rfl id
  have hchained : Chained (s.update r ({ · with accepting := false })) :=
    hchain.update rfl (fun hac => absurd hac Bool.false_ne_true) rfl rfl
  have hphase : ((s.update r ({ · with accepting := false })).requests r).phase = .executing := by
    rw [requests_update_self]
    exact hr
  cases outcome with
  | resolved =>
    dsimp only
    split_ifs
    · exact h.toFormed.enqueue hchain hr _ _ (h.open_emitted hr) fun hlive =>
        (h.live r hr hlive).ends .completed
    · exact h.toFormed
  | rejected error =>
    dsimp only
    split_ifs
    · exact hstops.fail hchained hphase _ _ _ _
    · exact hstops.fail hchained hphase _ _ _ _
    · exact h.toFormed
  | aborted => exact h.toFormed

theorem Grammatical.resume (h : Grammatical s) (hchain : Chained s) {created : Bool}
    (hs : s.resume c r created = some s') : Grammatical s' := by
  have hafter := hchain.resume hs
  unfold Adapter.resume at hs
  rw [Option.ite_none_right_eq_some] at hs
  obtain ⟨hr, hs⟩ := hs
  split at hs
  · cases hs
  · rename_i outcome _
    have hformed := h.conclude (c := c) hchain hr outcome created
    have hphases := (leaves_conclude (c := c) (s := s) (r := r) outcome created).requests
    have hfinish : s'.output = (s.conclude c r outcome created).output ∧
        s'.requests = ((s.conclude c r outcome created).update r fun q => { q with
          phase := .returned
          accepting := false
          firstOutputTimer := false
          requestTimer := false }).requests := by
      cases hs
      unfold Adapter.finishRequest
      split_ifs
      all_goals exact ⟨rfl, rfl⟩
    obtain ⟨houtput, hrequests⟩ := hfinish
    refine ⟨hformed.frame houtput ?_, ?_⟩
    · intro r' hr'
      rw [hrequests, requests_update]
      split_ifs
      · trivial
      · exact hr'
    · intro r' hr' _
      rw [hrequests, requests_update] at hr'
      split_ifs at hr' with hne
      rw [(hphases r').phase] at hr'
      exact absurd (hchain.unique hr' hr) hne

theorem Grammatical.timer (h : Grammatical s) {stage : Stage} {timeoutMs : ℕ}
    (hs : s.timer r stage timeoutMs = some s') : Grammatical s' := by
  have hfail : ∀ {t : Adapter}, Grammatical t →
      Grammatical (t.failForTimeout r stage timeoutMs) := by
    intro t ht
    unfold Adapter.failForTimeout
    dsimp only
    split_ifs
    · exact ht
    · have hk : Keeps t ((t.update r fun q => { q with
          race := q.race.or (some (.rejected (timeoutError stage timeoutMs))) }).abort r) :=
        (keeps_update ⟨rfl, rfl, rfl, rfl, rfl, id, id, id⟩).trans (keeps_abort r)
      exact (ht.keeps hk.toLeaves ((queue_abort r).trans rfl)).frame rfl (fun _ => rfl) fun _ => id
  unfold Adapter.timer at hs
  cases stage with
  | firstOutput | request =>
    dsimp only at hs
    split_ifs at hs
    cases hs
    exact hfail (h.update rfl id)

theorem Grammatical.step (h : Grammatical s) (hchain : Chained s) {a : Action} (ha : a.foreign)
    (hs : s.step c a = some s') : Grammatical s' := by
  have hclosed : Grammatical { s with closed := true } := h.frame rfl (fun _ => rfl) fun _ => id
  have hchained : Chained { s with closed := true } := hchain.frame rfl rfl rfl rfl rfl rfl
  cases a with
  | start text sequence =>
    obtain ⟨-, rfl⟩ := host_eq_some.mp hs
    exact h.start hchain text sequence
  | onSignal reason sequence =>
    obtain ⟨hhost, rfl⟩ := host_eq_some.mp hs
    exact h.cancel hchain hhost reason sequence
  | tick =>
    obtain ⟨-, rfl⟩ := host_eq_some.mp hs
    exact h.drain
  | onFinish | onAbort reason =>
    obtain ⟨hhost, rfl⟩ := host_eq_some.mp hs
    exact hclosed.cancel hchained hhost _ _
  | begin r created route => exact h.begin hchain hs
  | runDriver r =>
    simp only [Adapter.step, Option.ite_none_right_eq_some, Option.some.injEq] at hs
    obtain ⟨-, rfl⟩ := hs
    exact h.update rfl id
  | sinkText r delta =>
    cases hs
    exact h.sinkText hchain r delta
  | sinkEvent r type payload =>
    cases hs
    exact h.sinkEvent hchain r _ fun _ => decide_eq_true_eq.mp ha
  | settle r error =>
    simp only [Adapter.step, Adapter.settle, Option.ite_none_right_eq_some, Option.some.injEq] at hs
    obtain ⟨-, rfl⟩ := hs
    exact h.update rfl id
  | cleanUp r =>
    have hcleaned : Grammatical (s.update r ({ · with run := .cleaned })) := h.update rfl id
    simp only [Adapter.step, Adapter.cleanUp, Option.ite_none_right_eq_some] at hs
    obtain ⟨-, hs⟩ := hs
    split_ifs at hs
    · cases hs
      exact hcleaned.frame rfl (fun _ => rfl) fun _ => id
    · cases hs
      exact hcleaned
  | timer r stage timeoutMs => exact h.timer hs
  | resume r created => exact h.resume hchain hs

theorem Grammatical.of_reachable
    (hr : (adapterSystem c).ReachableBy (fun _ a => a.foreign) s) : Grammatical s := by
  apply hr.invariant
  · rintro s rfl
    exact formed_new
  · intro s a s' hr h ha hs
    exact h.step (Chained.of_reachable hr.reachable) ha hs

end Adapter

open Adapter

/-- What is emitted for a request is a response, and responses follow one another in the order of
their prompts. -/
theorem response_grammar (c : Config) (s : Adapter)
    (hr : (adapterSystem c).ReachableBy (fun _ a => a.foreign) s) :
    (∀ r, Response (kinds s.emitted r)) ∧ (s.emitted.map (·.request)).Pairwise (· ≤ ·) := by
  have h := Grammatical.of_reachable hr
  constructor
  · intro r
    have hresponse := h.response r
    unfold output at hresponse
    rw [kinds_append] at hresponse
    exact hresponse.of_append
  · have hordered := h.ordered
    unfold output at hordered
    rw [List.map_append, List.pairwise_append] at hordered
    exact hordered.1

/-- A response with a text and a failure. -/
theorem response_grammar_failed : ∃ s,
    (adapterSystem sampleConfig).ReachableBy (fun _ a => a.foreign) s ∧
    kinds s.emitted 1 = [.started, .text, .failed] ∧ Response [.started, .text, .failed] := by
  obtain ⟨s, hr, hs⟩ := exists_reachableBy_of_runBy (M := adapterSystem sampleConfig)
    (C := fun _ a => a.foreign) (s := .new) rfl
    [.start ['a'] 1, .begin 1 true .none, .runDriver 1, .sinkText 1 ['b'],
      .timer 1 .request 60000, .resume 1 true, .tick]
    (fun s => kinds s.emitted 1 == [.started, .text, .failed]) (by decide +kernel)
  rw [beq_iff_eq] at hs
  have hresponse := (response_grammar sampleConfig s hr).1 1
  rw [hs] at hresponse
  exact ⟨s, hr, hs, hresponse⟩

end Muxiva.Agent
