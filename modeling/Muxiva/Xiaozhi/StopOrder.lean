import Muxiva.Xiaozhi.Reblocking
import Muxiva.Xiaozhi.Reset

/-! Whether a stop overtakes the audio in front of it. The sender finds the queue empty, and only
then judges the stop under another lock; and it forgets the reply's audio after the stop has gone
out. -/
set_option linter.all false
namespace Muxiva.Xiaozhi

open Transition Transition.System

/-- What the publisher may do next. -/
inductive Phase where
  | silent
  | speaking
  | stopping
  deriving DecidableEq, Repr

/-- The gateway and its publisher: where the publisher is in its reply, what it has passed to
`publish_audio`, and whether a call has noted audio since the last stop went out. -/
structure Talk where
  gateway : Gateway
  phase : Phase
  published : List UInt8
  marked : Bool

/-- The PCM of the packets sent. -/
def sentPcm (sent : List Sent) : List PcmByte :=
  sent.flatMap fun
    | .message _ => []
    | .packet packet _ => packet.pcm

namespace Talk

def phaseAfter (s : Talk) : Action → Phase
  | .call _ (.publishMessage payload) =>
    match payload.ttsState with
    | some .start => .speaking
    | some .stop => .stopping
    | none => s.phase
  | .sender io =>
    match s.gateway.sender with
    | .sendsStop _ => if s.gateway.hasClient && io.sent then .silent else s.phase
    | _ => s.phase
  | _ => s.phase

def markedAfter (s : Talk) : Action → Bool
  | .caller n _ =>
    match s.gateway.callers n with
    | .publishMarks _ => true
    | _ => s.marked
  | .sender io =>
    match s.gateway.sender with
    | .sendsStop _ => if s.gateway.hasClient && io.sent then false else s.marked
    | _ => s.marked
  | _ => s.marked

def step (c : Config) (s : Talk) (a : Action) : Option Talk :=
  (s.gateway.step c a).map fun gateway => {
    gateway
    phase := s.phaseAfter a
    published := s.published ++ a.pcm
    marked := s.markedAfter a }

def system (c : Config) : System Talk Action where
  init s := s = ⟨.new, .silent, [], false⟩
  step := step c

/-- Caller `p` publishes a start, any audio, a stop, and the next start when that stop has been sent;
encoder and sends succeed, and nothing overflows. -/
def inTurn (c : Config) (p : ℕ) (s : Talk) : Action → Prop
  | .connect _ | .stop => True
  | .disconnect => False
  | .call n operation => n = p ∧
    match operation with
    | .publishAudio _ => s.phase = .speaking
    | .publishMessage payload =>
      match payload.ttsState with
      | some .start => s.phase = .silent
      | some .stop => s.phase = .speaking
      | none => False
    | .resetEgress => False
  | .caller n io => s.gateway.hasClient ∧ s.gateway.queuesFreely c (.caller n io) io
  | .sender io => s.gateway.hasClient ∧ io.sent ∧ s.gateway.queuesFreely c (.sender io) io

/-- The step does not fall into a race: a stop is not judged behind audio queued since the queue was
found empty, unless a tail keeps it back; and the last reply is not forgotten when audio of the next
has been noted. -/
def unraced (c : Config) (s : Talk) : Action → Prop
  | .sender io =>
    match s.gateway.sender with
    | .judgesStop => s.gateway.ttsStopMessage.isSome → s.gateway.audioDrained c io.now →
        s.gateway.egressPcm = [] → s.gateway.egress = []
    | .endsPlayback => s.marked = false
    | _ => True
  | _ => True

instance (c : Config) (p : ℕ) (s : Talk) : ∀ a, Decidable (s.inTurn c p a)
  | .connect _ | .stop => instDecidableTrue
  | .disconnect => instDecidableFalse
  | .call _ (.publishAudio _) | .caller _ _ | .sender _ => inferInstanceAs (Decidable (_ ∧ _))
  | .call _ .resetEgress => inferInstanceAs (Decidable (_ ∧ False))
  | .call n (.publishMessage payload) => by
    dsimp only [inTurn]
    cases payload.ttsState with
    | none => infer_instance
    | some state => cases state <;> infer_instance

instance (c : Config) (s : Talk) : ∀ a, Decidable (s.unraced c a)
  | .connect _ | .disconnect | .stop | .call _ _ | .caller _ _ => instDecidableTrue
  | .sender _ => by
    dsimp only [unraced]
    cases s.gateway.sender <;> infer_instance

/-- A stop is in the sender's hands. -/
def sendsStop (s : Talk) : Prop :=
  ∃ message, s.gateway.sender = .sendsStop message ∨
    s.gateway.sender = .sendsMessage message ∧ message.ttsState = some .stop

/-- Nothing published is still to be sent. -/
def Delivered (s : Talk) : Prop :=
  s.gateway.egress = [] ∧ s.gateway.egressPcm = [] ∧ pcmValues (sentPcm s.gateway.sent) = s.published

/-- Where the publisher's thread can be. -/
def AtCaller (s : Talk) : Caller → Prop
  | .idle => True
  | .publishChecks .. | .publishExtends .. | .publishMarks .. | .publishQueues .. =>
    s.phase = .speaking
  | .messageChecks message | .messageBuilds message | .messageMarks message =>
    message.ttsState = some .start ∧ s.phase = .speaking ∧ s.marked = false ∨
      message.ttsState = some .stop ∧ s.phase = .stopping
  | .messagePuts message =>
    message.ttsState = some .start ∧ s.phase = .speaking ∧ s.marked = false
  | .resetDrains .. | .resetClears .. | .resetForgets .. => False

/-- Where the sender can be; behind the judgement the stop is pending until it is taken. -/
def AtSender (p : ℕ) (s : Talk) : Sender → Prop
  | .flushesTail =>
    s.gateway.ttsStopMessage.isSome ∧ (s.gateway.egressPcm = [] → s.gateway.egress = [])
  | .queuesTail _ => s.gateway.ttsStopMessage.isSome
  | .takesStop =>
    s.gateway.ttsStopMessage.isSome ∧ s.gateway.egress = [] ∧ s.gateway.egressPcm = []
  | .sendsStop _ =>
    s.gateway.egress = [] ∧ s.gateway.egressPcm = [] ∧ s.gateway.ttsStopMessage = none ∧
      s.phase = .stopping ∧ s.gateway.callers p = .idle
  | .sendsMessage message => message.ttsState ≠ some .stop
  | _ => True

/-- No audio of the reply has been noted, so none is queued or on its way. -/
structure Unmarked (p : ℕ) (s : Talk) : Prop where
  egress : s.gateway.egress = []
  sending : s.gateway.sender.sending = []
  tail : s.gateway.sender.tail = []
  queues : ∀ frames, s.gateway.callers p ≠ .publishQueues frames
  pcm : (∀ frames, s.gateway.callers p ≠ .publishMarks frames) → s.gateway.egressPcm = []

/-- The PCM sent and on its way, in order. -/
def inHand (p : ℕ) (s : Talk) : List PcmByte :=
  sentPcm s.gateway.sent ++ s.gateway.sender.sending ++ s.gateway.egress.flatMap Packet.pcm ++
    (s.gateway.callers p).framesCut.flatten ++ s.gateway.sender.tail.flatten ++ s.gateway.egressPcm

structure Ordered (p : ℕ) (s : Talk) : Prop where
  others : ∀ n, n ≠ p → s.gateway.callers n = .idle
  caller : s.AtCaller (s.gateway.callers p)
  sender : s.AtSender p s.gateway.sender
  messages : ∀ message ∈ s.gateway.messages, message.ttsState ≠ some .stop
  accounted : pcmValues (s.inHand p) ++ (s.gateway.callers p).unread = s.published
  pending : s.gateway.ttsStopMessage.isSome → s.phase = .stopping ∧ s.gateway.callers p = .idle
  silent : s.phase = .silent → s.gateway.callers p = .idle ∧ s.marked = false
  unmarked : s.marked = false → s.Unmarked p
  marked : s.marked = true → s.gateway.ttsAudioSeen = true

variable {c : Config} {p : ℕ} {s s' : Talk}

theorem ordered_new : Ordered p ⟨.new, .silent, [], false⟩ := by
  constructor <;> simp [Gateway.new, AtCaller, AtSender, inHand, sentPcm, pcmValues, Sender.sending,
    Sender.tail, Caller.framesCut, Caller.unread]
  constructor <;> simp [Sender.sending, Sender.tail]

theorem step_eq {a : Action} (hs : step c s a = some s') : ∃ g, s.gateway.step c a = some g ∧
    s' = ⟨g, s.phaseAfter a, s.published ++ a.pcm, s.markedAfter a⟩ := by
  obtain ⟨g, hg, heq⟩ := Option.map_eq_some_iff.mp hs
  exact ⟨g, hg, heq.symm⟩

/-- With nothing on its way, everything published was sent. -/
theorem Ordered.delivered (h : Ordered p s) (hsending : s.gateway.sender.sending = [])
    (htail : s.gateway.sender.tail = []) (hidle : s.gateway.callers p = .idle)
    (hegress : s.gateway.egress = []) (hpcm : s.gateway.egressPcm = []) : s.Delivered := by
  refine ⟨hegress, hpcm, ?_⟩
  have haccounted := h.accounted
  rw [inHand, hsending, htail, hidle, hegress, hpcm] at haccounted
  simpa [Caller.framesCut, Caller.unread] using haccounted

/-- While the publisher is about something the sender is not about a stop. -/
theorem Ordered.sender_free (h : Ordered p s)
    (hactive : s.gateway.callers p ≠ .idle ∨ s.phase ≠ .stopping) :
    s.gateway.ttsStopMessage = none ∧ s.gateway.sender.tail = [] ∧
      ∀ t : Talk, t.AtSender p s.gateway.sender := by
  have hnone : s.gateway.ttsStopMessage = none := by
    cases hstop : s.gateway.ttsStopMessage with
    | none => rfl
    | some message =>
      obtain ⟨hphase, hidle⟩ := h.pending (by rw [hstop]; rfl)
      rcases hactive with hbusy | hphase'
      · exact absurd hidle hbusy
      · exact absurd hphase hphase'
  have hsender := h.sender
  refine ⟨hnone, ?_, fun t => ?_⟩
  · cases hpc : s.gateway.sender <;> simp_all [AtSender, Sender.tail]
  · cases hpc : s.gateway.sender <;> simp_all [AtSender]

/-- The publisher moves on; what it publishes is accounted for and the sender stays where it is. -/
theorem Ordered.advance (h : Ordered p s)
    (hactive : s.gateway.callers p ≠ .idle ∨ s.phase ≠ .stopping) {t : Talk} {pc : Caller}
    {input : List UInt8} (hsender : t.gateway.sender = s.gateway.sender)
    (hsent : t.gateway.sent = s.gateway.sent)
    (hcallers : t.gateway.callers = Function.update s.gateway.callers p pc)
    (hcaller : t.AtCaller pc)
    (hmessages : ∀ message ∈ t.gateway.messages, message.ttsState ≠ some .stop)
    (hpublished : t.published = s.published ++ input)
    (hmoved : pcmValues (t.gateway.egress.flatMap Packet.pcm ++ pc.framesCut.flatten ++
        t.gateway.egressPcm) ++ pc.unread =
      pcmValues (s.gateway.egress.flatMap Packet.pcm ++ (s.gateway.callers p).framesCut.flatten ++
        s.gateway.egressPcm) ++ (s.gateway.callers p).unread ++ input)
    (hpending : t.gateway.ttsStopMessage.isSome → t.phase = .stopping ∧ pc = .idle)
    (hsilent : t.phase = .silent → pc = .idle ∧ t.marked = false)
    (hunmarked : t.marked = false → t.gateway.egress = [] ∧ s.gateway.sender.sending = [] ∧
      (∀ frames, pc ≠ .publishQueues frames) ∧
      ((∀ frames, pc ≠ .publishMarks frames) → t.gateway.egressPcm = []))
    (hmarked : t.marked = true → t.gateway.ttsAudioSeen = true) : Ordered p t := by
  obtain ⟨-, htail, hat⟩ := h.sender_free hactive
  have hp : t.gateway.callers p = pc := by rw [hcallers, Function.update_self]
  constructor
  · intro n hn
    rw [hcallers, Function.update_of_ne hn]
    exact h.others n hn
  · rw [hp]
    exact hcaller
  · rw [hsender]
    exact hat t
  · exact hmessages
  · have haccounted := h.accounted
    rw [hpublished, ← haccounted, inHand, inHand, hsent, hsender, htail, hp]
    simp only [pcmValues_append, List.flatten_nil, List.append_nil, List.append_assoc] at hmoved ⊢
    rw [hmoved]
  · rw [hp]
    exact hpending
  · rw [hp]
    exact hsilent
  · intro hmark
    obtain ⟨hegress, hsending, hqueues, hpcm⟩ := hunmarked hmark
    refine ⟨hegress, by rw [hsender]; exact hsending, by rw [hsender]; exact htail, ?_, ?_⟩
    · rw [hp]
      exact hqueues
    · rw [hp]
      exact hpcm
  · exact hmarked

theorem Ordered.call (h : Ordered p s) {n : ℕ} {operation : Operation}
    (hc : s.inTurn c p (.call n operation)) (hs : step c s (.call n operation) = some s') :
    Ordered p s' := by
  obtain ⟨g, hg, rfl⟩ := step_eq hs
  obtain ⟨rfl, hturn⟩ := hc
  simp only [Gateway.step, Gateway.call] at hg
  split at hg
  case h_2 => cases hg
  case h_1 hidle =>
    cases operation with
    | resetEgress => cases hturn
    | publishAudio pcm =>
      have hphase : s.phase = .speaking := hturn
      have hnone := (h.sender_free (.inr (by simp [hphase]))).1
      cases hg
      refine h.advance (.inr (by simp [hphase])) rfl rfl rfl hphase h.messages rfl
        (by simp [hidle, Gateway.moveTo, Caller.framesCut, Caller.unread, Action.pcm]) ?_ ?_ ?_
        h.marked
      · simp [Gateway.moveTo, hnone]
      · intro hsilent
        simp [phaseAfter, hphase] at hsilent
      · intro hmark
        have hu := h.unmarked hmark
        exact ⟨hu.egress, hu.sending, (fun _ hq => by cases hq), fun _ => hu.pcm (by simp [hidle])⟩
    | publishMessage payload =>
      cases hg
      cases hstate : payload.ttsState with
      | none => simp [hstate] at hturn
      | some state =>
        have hphase : s.phase ≠ .stopping := by
          cases state <;> simp_all
        have hnone := (h.sender_free (.inr hphase)).1
        refine h.advance (.inr hphase) rfl rfl rfl ?_ h.messages rfl
          (by simp [hidle, Gateway.moveTo, Caller.framesCut, Caller.unread, Action.pcm]) ?_ ?_ ?_
          h.marked
        · cases state with
          | start =>
            have hsilent : s.phase = .silent := by simpa [hstate] using hturn
            exact .inl ⟨hstate, by simp [phaseAfter, hstate], (h.silent hsilent).2⟩
          | stop => exact .inr ⟨hstate, by simp [phaseAfter, hstate]⟩
        · simp [Gateway.moveTo, hnone]
        · intro hsilent
          cases state <;> simp [phaseAfter, hstate] at hsilent
        · intro hmark
          have hu := h.unmarked hmark
          exact ⟨hu.egress, hu.sending, (fun _ hq => by cases hq), fun _ => hu.pcm (by simp [hidle])⟩

theorem Ordered.callerStep (h : Ordered p s) {n : ℕ} {io : Io}
    (hc : s.inTurn c p (.caller n io)) (hs : step c s (.caller n io) = some s') :
    Ordered p s' := by
  obtain ⟨g, hg, rfl⟩ := step_eq hs
  obtain ⟨hclient, hqueues⟩ := hc
  simp only [Gateway.step, Gateway.stepCaller] at hg
  by_cases hn : n = p
  case neg => simp [h.others n hn] at hg
  subst hn
  have hcaller := h.caller
  cases hpc : s.gateway.callers n with
  | idle => simp [hpc] at hg
  | resetDrains before | resetClears before | resetForgets before =>
    rw [hpc] at hcaller
    exact hcaller.elim
  | publishChecks call pcm =>
    have hactive : s.gateway.callers n ≠ .idle := by simp [hpc]
    have hnone := (h.sender_free (.inl hactive)).1
    have hphase : s.phase = .speaking := by simpa [hpc, AtCaller] using hcaller
    simp only [hpc, hclient, if_true, Option.some.injEq] at hg
    subst hg
    refine h.advance (.inl hactive) rfl rfl rfl hphase h.messages rfl
      (by simp [hpc, Gateway.moveTo, Caller.framesCut, Caller.unread, Action.pcm])
      (by simp [Gateway.moveTo, hnone]) (by simp [phaseAfter, hphase]) ?_ ?_
    · intro hmark
      have hu := h.unmarked (by simpa [markedAfter, hpc] using hmark)
      exact ⟨hu.egress, hu.sending, (fun _ hq => by cases hq), fun _ => hu.pcm (by simp [hpc])⟩
    · simpa [markedAfter, hpc, Gateway.moveTo] using h.marked
  | publishExtends call pcm =>
    have hactive : s.gateway.callers n ≠ .idle := by simp [hpc]
    have hnone := (h.sender_free (.inl hactive)).1
    have hphase : s.phase = .speaking := by simpa [hpc, AtCaller] using hcaller
    have hsize : 0 < c.pcmFrameBytes := Nat.mul_pos c.frame_pos (by decide)
    have hcut := cutFrames_spec hsize
      (le_refl (s.gateway.egressPcm ++ pcm.map fun value => (⟨value, call⟩ : PcmByte)).length)
    simp only [hpc, Option.some.injEq] at hg
    generalize cutFrames _ _ _ = cut at hcut hg
    obtain ⟨hflatten, -, -⟩ := hcut
    subst hg
    refine h.advance (.inl hactive) rfl rfl rfl hphase h.messages rfl ?_
      (by simp [Gateway.moveTo, hnone]) (by simp [phaseAfter, hphase]) ?_ ?_
    · simp only [hpc, Gateway.moveTo, Caller.framesCut, Caller.unread, Action.pcm,
        List.append_assoc, hflatten]
      simp [pcmValues, Function.comp_def]
    · intro hmark
      have hu := h.unmarked (by simpa [markedAfter, hpc] using hmark)
      exact ⟨hu.egress, hu.sending, (fun _ hq => by cases hq), fun hno => absurd rfl (hno cut.1)⟩
    · simpa [markedAfter, hpc, Gateway.moveTo] using h.marked
  | publishMarks frames =>
    have hactive : s.gateway.callers n ≠ .idle := by simp [hpc]
    have hnone := (h.sender_free (.inl hactive)).1
    have hphase : s.phase = .speaking := by simpa [hpc, AtCaller] using hcaller
    simp only [hpc, Option.some.injEq] at hg
    subst hg
    refine h.advance (.inl hactive) rfl rfl rfl hphase h.messages rfl
      (by simp [hpc, Gateway.moveTo, Caller.framesCut, Caller.unread, Action.pcm])
      (by simp [Gateway.moveTo, hnone]) (by simp [phaseAfter, hphase]) ?_ (fun _ => rfl)
    intro hmark
    simp [markedAfter, hpc] at hmark
  | publishQueues frames =>
    have hactive : s.gateway.callers n ≠ .idle := by simp [hpc]
    have hnone := (h.sender_free (.inl hactive)).1
    have hphase : s.phase = .speaking := by simpa [hpc, AtCaller] using hcaller
    have hmarked : s.marked = true := by
      by_contra hmark
      exact (h.unmarked (Bool.eq_false_of_not_eq_true hmark)).queues frames hpc
    cases frames with
    | nil =>
      simp only [hpc, Option.some.injEq] at hg
      subst hg
      refine h.advance (.inl hactive) rfl rfl rfl trivial h.messages rfl
        (by simp [hpc, Gateway.moveTo, Caller.framesCut, Caller.unread, Action.pcm])
        (by simp [Gateway.moveTo, hnone]) (by simp [phaseAfter, hphase]) ?_ ?_
      · simp [markedAfter, hpc, hmarked]
      · simpa [markedAfter, hpc, Gateway.moveTo] using h.marked
    | cons frame frames =>
      obtain ⟨hopus, hroom⟩ := hqueues.resolve_left (by simp [Gateway.encodes, hpc])
      obtain ⟨opus, hopus⟩ := Option.isSome_iff_exists.mp hopus
      simp only [hpc, Gateway.encodeAndQueue, hopus, hroom, if_true, Option.some.injEq] at hg
      subst hg
      refine h.advance (.inl hactive) rfl rfl rfl hphase h.messages rfl
        (by simp [hpc, Gateway.moveTo, Caller.framesCut, Caller.unread, Action.pcm])
        (by simp [Gateway.moveTo, hnone]) (by simp [phaseAfter, hphase]) ?_ ?_
      · simp [markedAfter, hpc, hmarked]
      · simpa [markedAfter, hpc, Gateway.moveTo] using h.marked
  | messageChecks message =>
    have hactive : s.gateway.callers n ≠ .idle := by simp [hpc]
    have hnone := (h.sender_free (.inl hactive)).1
    simp only [hpc, hclient, if_true, Option.some.injEq] at hg
    rw [hpc] at hcaller
    subst hg
    refine h.advance (.inl hactive) rfl rfl rfl ?_ h.messages rfl
      (by simp [hpc, Gateway.moveTo, Caller.framesCut, Caller.unread, Action.pcm])
      (by simp [Gateway.moveTo, hnone]) ?_ ?_ ?_
    · simpa [AtCaller, phaseAfter, markedAfter, hpc] using hcaller
    · intro hsilent
      rcases hcaller with ⟨-, hphase, -⟩ | ⟨-, hphase⟩ <;> simp [phaseAfter, hphase] at hsilent
    · intro hmark
      have hu := h.unmarked (by simpa [markedAfter, hpc] using hmark)
      exact ⟨hu.egress, hu.sending, (fun _ hq => by cases hq), fun _ => hu.pcm (by simp [hpc])⟩
    · simpa [markedAfter, hpc, Gateway.moveTo] using h.marked
  | messageBuilds payload =>
    have hactive : s.gateway.callers n ≠ .idle := by simp [hpc]
    have hnone := (h.sender_free (.inl hactive)).1
    simp only [hpc, Option.some.injEq] at hg
    rw [hpc] at hcaller
    obtain ⟨message, hmessage⟩ : ∃ message : Payload,
        message = { payload with sessionId := some (payload.sessionId.getD (s.gateway.ws.getD "")) } :=
      ⟨_, rfl⟩
    have hstate : message.ttsState = payload.ttsState := by
      rw [hmessage]
      rfl
    have hsome : message.ttsState.isSome := by
      rw [hstate]
      rcases hcaller with ⟨hstart, -⟩ | ⟨hstop, -⟩
      · rw [hstart]
        rfl
      · rw [hstop]
        rfl
    rw [← hmessage, if_pos hsome] at hg
    subst hg
    refine h.advance (.inl hactive) rfl rfl rfl ?_ h.messages rfl
      (by simp [hpc, Gateway.moveTo, Caller.framesCut, Caller.unread, Action.pcm])
      (by simp [Gateway.moveTo, hnone]) ?_ ?_ ?_
    · simpa [AtCaller, phaseAfter, markedAfter, hpc, hstate] using hcaller
    · intro hsilent
      rcases hcaller with ⟨-, hphase, -⟩ | ⟨-, hphase⟩ <;> simp [phaseAfter, hphase] at hsilent
    · intro hmark
      have hu := h.unmarked (by simpa [markedAfter, hpc] using hmark)
      exact ⟨hu.egress, hu.sending, (fun _ hq => by cases hq), fun _ => hu.pcm (by simp [hpc])⟩
    · simpa [markedAfter, hpc, Gateway.moveTo] using h.marked
  | messageMarks message =>
    have hactive : s.gateway.callers n ≠ .idle := by simp [hpc]
    have hnone := (h.sender_free (.inl hactive)).1
    rw [hpc] at hcaller
    rcases hcaller with ⟨hstart, hphase, hmark⟩ | ⟨hstop, hphase⟩
    · simp only [hpc, hstart, Option.some.injEq] at hg
      subst hg
      refine h.advance (.inl hactive) rfl rfl rfl ?_ h.messages rfl
        (by simp [hpc, Gateway.moveTo, Caller.framesCut, Caller.unread, Action.pcm])
        (by simp [Gateway.moveTo]) (by simp [phaseAfter, hphase]) ?_ ?_
      · exact ⟨hstart, hphase, by simpa [markedAfter, hpc] using hmark⟩
      · intro _
        have hu := h.unmarked hmark
        exact ⟨hu.egress, hu.sending, (fun _ hq => by cases hq), fun _ => hu.pcm (by simp [hpc])⟩
      · simp [markedAfter, hpc, hmark]
    · simp only [hpc, hstop, Option.some.injEq] at hg
      subst hg
      refine h.advance (.inl hactive) rfl rfl rfl trivial h.messages rfl
        (by simp [hpc, Gateway.moveTo, Caller.framesCut, Caller.unread, Action.pcm])
        (fun _ => ⟨hphase, rfl⟩) (by simp [phaseAfter, hphase]) ?_ ?_
      · intro hmark
        have hu := h.unmarked (by simpa [markedAfter, hpc] using hmark)
        exact ⟨hu.egress, hu.sending, (fun _ hq => by cases hq), fun _ => hu.pcm (by simp [hpc])⟩
      · simpa [markedAfter, hpc, Gateway.moveTo] using h.marked
  | messagePuts message =>
    have hactive : s.gateway.callers n ≠ .idle := by simp [hpc]
    have hnone := (h.sender_free (.inl hactive)).1
    rw [hpc] at hcaller
    obtain ⟨hstart, hphase, hmark⟩ := hcaller
    have hu := h.unmarked hmark
    simp only [hpc] at hg
    split at hg
    · cases hg
      refine h.advance (.inl hactive) rfl rfl rfl trivial ?_ rfl
        (by simp [hpc, Gateway.moveTo, Caller.framesCut, Caller.unread, Action.pcm])
        (by simp [Gateway.moveTo, hnone]) (by simp [phaseAfter, hphase]) ?_ ?_
      · intro m hm
        rcases List.mem_append.mp hm with hm | hm
        · exact h.messages m hm
        · rw [List.mem_singleton.mp hm, hstart]
          decide
      · exact fun _ => ⟨hu.egress, hu.sending, (fun _ hq => by cases hq), fun _ => hu.pcm (by simp [hpc])⟩
      · simp [markedAfter, hpc, hmark]
    · cases hg
      refine h.advance (.inl hactive) rfl rfl rfl trivial h.messages rfl
        (by simp [hpc, Gateway.moveTo, Caller.framesCut, Caller.unread, Action.pcm])
        (by simp [Gateway.moveTo, hnone]) (by simp [phaseAfter, hphase]) ?_ ?_
      · exact fun _ => ⟨hu.egress, hu.sending, (fun _ hq => by cases hq), fun _ => hu.pcm (by simp [hpc])⟩
      · simp [markedAfter, hpc, hmark]

/-- The sender moves on with the publisher where it is; what it holds and sends is accounted for. -/
theorem Ordered.proceed (h : Ordered p s) {t : Talk}
    (hcallers : t.gateway.callers = s.gateway.callers) (hpublished : t.published = s.published)
    (hphase : t.phase = s.phase) (hmark : t.marked = s.marked)
    (hat : t.AtSender p t.gateway.sender)
    (hmessages : ∀ message ∈ t.gateway.messages, message.ttsState ≠ some .stop)
    (hmoved : t.inHand p = s.inHand p)
    (hpending : t.gateway.ttsStopMessage.isSome → s.gateway.ttsStopMessage.isSome)
    (hunmarked : s.marked = false → s.Unmarked p → t.gateway.sender.sending = [] ∧
      t.gateway.sender.tail = [] ∧ t.gateway.egress = [] ∧
      (s.gateway.egressPcm = [] → t.gateway.egressPcm = []))
    (hseen : s.marked = true → t.gateway.ttsAudioSeen = s.gateway.ttsAudioSeen) : Ordered p t := by
  constructor
  · intro n hn
    rw [hcallers]
    exact h.others n hn
  · have hcaller := h.caller
    rw [hcallers]
    cases hpc : s.gateway.callers p <;> simp_all [AtCaller]
  · exact hat
  · exact hmessages
  · have haccounted := h.accounted
    rw [hmoved, hpublished, hcallers, haccounted]
  · intro hsome
    rw [hphase, hcallers]
    exact h.pending (hpending hsome)
  · rw [hphase, hcallers, hmark]
    exact h.silent
  · intro hfalse
    rw [hmark] at hfalse
    have hu := h.unmarked hfalse
    obtain ⟨hsending, hnotail, hegress, hpcm⟩ := hunmarked hfalse hu
    refine ⟨hegress, hsending, hnotail, by rw [hcallers]; exact hu.queues, fun hno => ?_⟩
    rw [hcallers] at hno
    exact hpcm (hu.pcm hno)
  · intro htrue
    rw [hmark] at htrue
    rw [hseen htrue]
    exact h.marked htrue

/-- The sender moves on without touching PCM. -/
theorem Ordered.idles (h : Ordered p s) {t : Talk}
    (hcallers : t.gateway.callers = s.gateway.callers) (hpublished : t.published = s.published)
    (hphase : t.phase = s.phase) (hmark : t.marked = s.marked)
    (hat : t.AtSender p t.gateway.sender)
    (hmessages : ∀ message ∈ t.gateway.messages, message.ttsState ≠ some .stop)
    (hsent : sentPcm t.gateway.sent = sentPcm s.gateway.sent)
    (hegress : t.gateway.egress = s.gateway.egress)
    (hpcm : t.gateway.egressPcm = s.gateway.egressPcm)
    (hbefore : s.gateway.sender.sending = [] ∧ s.gateway.sender.tail = [])
    (hafter : t.gateway.sender.sending = [] ∧ t.gateway.sender.tail = [])
    (hpending : t.gateway.ttsStopMessage.isSome → s.gateway.ttsStopMessage.isSome)
    (hseen : s.marked = true → t.gateway.ttsAudioSeen = s.gateway.ttsAudioSeen) : Ordered p t := by
  refine h.proceed hcallers hpublished hphase hmark hat hmessages ?_ hpending ?_ hseen
  · rw [inHand, inHand, hsent, hegress, hpcm, hcallers, hbefore.1, hbefore.2, hafter.1, hafter.2]
  · intro _ hu
    exact ⟨hafter.1, hafter.2, hegress.trans hu.egress, fun hnil => hpcm.trans hnil⟩

@[simp] theorem sentPcm_append (a b : List Sent) : sentPcm (a ++ b) = sentPcm a ++ sentPcm b :=
  List.flatMap_append

theorem Ordered.senderStep (h : Ordered p s) {io : Io} (hc : s.inTurn c p (.sender io))
    (hu : s.unraced c (.sender io)) (hs : step c s (.sender io) = some s') : Ordered p s' := by
  obtain ⟨g, hg, rfl⟩ := step_eq hs
  obtain ⟨hclient, hsent, hqueues⟩ := hc
  simp only [Gateway.step, Gateway.stepSender] at hg
  have hsender := h.sender
  cases hpc : s.gateway.sender with
  | exited => simp [hpc] at hg
  | top =>
    simp only [hpc, Option.some.injEq] at hg
    subst hg
    cases s.gateway.stopped <;> apply h.idles <;>
      simp [Action.pcm, phaseAfter, markedAfter, hpc, Sender.sending, Sender.tail, AtSender] <;>
      exact h.messages
  | drainsMessages =>
    cases hmessages : s.gateway.messages with
    | nil =>
      simp only [hpc, hmessages, Option.some.injEq] at hg
      subst hg
      apply h.idles <;>
        simp [Action.pcm, phaseAfter, markedAfter, hpc, Sender.sending, Sender.tail, AtSender]
    | cons message messages =>
      have hall := h.messages
      rw [hmessages] at hall
      simp only [hpc, hmessages, Option.some.injEq] at hg
      subst hg
      apply h.idles <;>
        simp [Action.pcm, phaseAfter, markedAfter, hpc, Sender.sending, Sender.tail]
      · exact hall message List.mem_cons_self
      · exact fun m hm => hall m (List.mem_cons_of_mem _ hm)
  | sendsMessage message =>
    simp only [hpc, hclient, hsent, Bool.and_self, if_true, Option.some.injEq] at hg
    subst hg
    apply h.idles <;>
      simp [Action.pcm, phaseAfter, markedAfter, hpc, Sender.sending, Sender.tail, AtSender]
    · exact h.messages
    · rfl
  | readsPlayback =>
    simp only [hpc, Option.some.injEq] at hg
    subst hg
    apply h.idles <;>
      simp [Action.pcm, phaseAfter, markedAfter, hpc, Sender.sending, Sender.tail, AtSender]
    exact h.messages
  | checksPrebuffer started ready =>
    simp only [hpc] at hg
    split_ifs at hg <;> cases hg <;> apply h.idles <;>
      simp [Action.pcm, phaseAfter, markedAfter, hpc, Sender.sending, Sender.tail, AtSender] <;>
      exact h.messages
  | startsPlayback =>
    simp only [hpc, Option.some.injEq] at hg
    subst hg
    apply h.idles <;>
      simp [Action.pcm, phaseAfter, markedAfter, hpc, Sender.sending, Sender.tail, AtSender]
    exact h.messages
  | marksPacket =>
    simp only [hpc, Option.some.injEq] at hg
    subst hg
    apply h.idles <;>
      simp [Action.pcm, phaseAfter, markedAfter, hpc, Sender.sending, Sender.tail, AtSender]
    exact h.messages
  | takesPacket =>
    cases hegress : s.gateway.egress with
    | nil =>
      simp only [hpc, hegress, Option.some.injEq] at hg
      subst hg
      apply h.idles <;>
        simp [Action.pcm, phaseAfter, markedAfter, hpc, hegress, Sender.sending, Sender.tail,
          AtSender]
      exact h.messages
    | cons packet egress =>
      simp only [hpc, hegress, Option.some.injEq] at hg
      subst hg
      apply h.proceed <;>
        simp [Action.pcm, phaseAfter, markedAfter, hpc, hegress, Sender.sending, Sender.tail,
          AtSender, inHand]
      · exact h.messages
      · intro _ hun
        exact absurd hun.egress (by simp [hegress])
  | sendsPacket packet =>
    simp only [hpc, hclient, hsent, Bool.and_self, if_true, Option.some.injEq] at hg
    subst hg
    apply h.proceed <;>
      simp [Action.pcm, phaseAfter, markedAfter, hpc, Sender.sending, Sender.tail, AtSender, inHand,
        sentPcm]
    · exact h.messages
    · exact fun _ hun => hun.egress
  | judgesStop =>
    cases hstop : s.gateway.ttsStopMessage with
    | none =>
      simp only [hpc, hstop, Option.some.injEq] at hg
      subst hg
      apply h.idles <;>
        simp [Action.pcm, phaseAfter, markedAfter, hpc, Sender.sending, Sender.tail, AtSender]
      exact h.messages
    | some message =>
      obtain ⟨hphase, hidle⟩ := h.pending (by rw [hstop]; rfl)
      by_cases hdrained : s.gateway.audioDrained c io.now
      · simp only [hpc, hstop, hdrained, if_true, Option.some.injEq] at hg
        subst hg
        have hqueue : s.gateway.egressPcm = [] → s.gateway.egress = [] := by
          simpa [unraced, hpc, hstop, hdrained] using hu
        apply h.idles <;>
          simp [Action.pcm, phaseAfter, markedAfter, hpc, Sender.sending, Sender.tail, AtSender,
            hstop]
        · exact hqueue
        · exact h.messages
      · by_cases hnever : s.gateway.audioNeverArrived c io.now
        · simp only [hpc, hstop, hdrained, hnever, if_true, Option.some.injEq,
            Bool.false_eq_true, if_false] at hg
          subst hg
          -- no audio was noted for the reply, so there is none
          have hunseen : s.gateway.ttsAudioSeen = false := by
            simp only [Gateway.audioNeverArrived, Bool.and_eq_true, Bool.not_eq_true'] at hnever
            exact hnever.1
          have hmark : s.marked = false := by
            by_contra hmark
            rw [h.marked (Bool.eq_true_of_not_eq_false hmark)] at hunseen
            cases hunseen
          have hun := h.unmarked hmark
          have hpcm := hun.pcm (by simp [hidle])
          apply h.idles <;>
            simp [Action.pcm, phaseAfter, markedAfter, hpc, Sender.sending, Sender.tail, AtSender,
              hun.egress, hpcm, hphase, hidle]
          exact h.messages
        · simp only [hpc, hstop, hdrained, hnever, Option.some.injEq, Bool.false_eq_true,
            if_false] at hg
          subst hg
          apply h.idles <;>
            simp [Action.pcm, phaseAfter, markedAfter, hpc, Sender.sending, Sender.tail, AtSender,
              hstop]
          exact h.messages
  | flushesTail =>
    rw [hpc] at hsender
    obtain ⟨hsome, hqueue⟩ := hsender
    obtain ⟨-, hidle⟩ := h.pending hsome
    by_cases hpcm : s.gateway.egressPcm = []
    · simp only [hpc, hpcm, List.isEmpty_nil, if_true, Option.some.injEq] at hg
      subst hg
      apply h.idles <;>
        simp [Action.pcm, phaseAfter, markedAfter, hpc, Sender.sending, Sender.tail, AtSender,
          hsome, hpcm]
      · exact hqueue hpcm
      · exact h.messages
    · simp only [hpc, List.isEmpty_iff, hpcm, if_false, Option.some.injEq] at hg
      subst hg
      apply h.proceed <;>
        simp [Action.pcm, phaseAfter, markedAfter, hpc, Sender.sending, Sender.tail, AtSender,
          hsome, inHand]
      · exact h.messages
      · intro _ hun
        exact absurd (hun.pcm (by simp [hidle])) hpcm
  | queuesTail tail =>
    rw [hpc] at hsender
    obtain ⟨-, hidle⟩ := h.pending hsender
    obtain ⟨hopus, hroom⟩ := hqueues.resolve_left (by simp [Gateway.encodes, hpc, Sender.tail])
    obtain ⟨opus, hopus⟩ := Option.isSome_iff_exists.mp hopus
    simp only [hpc, Gateway.encodeAndQueue, hopus, hroom, if_true, Option.some.injEq] at hg
    subst hg
    apply h.proceed <;>
      simp [Action.pcm, phaseAfter, markedAfter, hpc, Sender.sending, Sender.tail, AtSender, inHand,
        hidle, Caller.framesCut]
    · exact h.messages
    · intro _ hun
      have htail := hun.tail
      simp [hpc, Sender.tail] at htail
  | takesStop =>
    rw [hpc] at hsender
    obtain ⟨hsome, hegress, hpcm⟩ := hsender
    obtain ⟨hphase, hidle⟩ := h.pending hsome
    obtain ⟨message, hstop⟩ := Option.isSome_iff_exists.mp hsome
    simp only [hpc, hstop, Option.elim_some, Option.some.injEq] at hg
    subst hg
    apply h.idles <;>
      simp [Action.pcm, phaseAfter, markedAfter, hpc, Sender.sending, Sender.tail, AtSender,
        hegress, hpcm, hphase, hidle]
    exact h.messages
  | sendsStop message =>
    rw [hpc] at hsender
    obtain ⟨hegress, hpcm, hnone, hphase, hidle⟩ := hsender
    simp only [hpc, hclient, hsent, Bool.and_self, if_true, Option.some.injEq] at hg
    subst hg
    constructor
    · exact h.others
    · rw [hidle]
      trivial
    · trivial
    · exact h.messages
    · have haccounted := h.accounted
      simpa [inHand, hpc, sentPcm, Sender.sending, Sender.tail, Action.pcm] using haccounted
    · simp [hnone]
    · intro _
      exact ⟨hidle, by simp [markedAfter, hpc, hclient, hsent]⟩
    · intro _
      exact ⟨hegress, rfl, rfl, by simp [hidle], fun _ => hpcm⟩
    · simp [markedAfter, hpc, hclient, hsent]
  | endsPlayback =>
    have hmark : s.marked = false := by simpa [unraced, hpc] using hu
    simp only [hpc, Option.some.injEq] at hg
    subst hg
    apply h.idles <;>
      simp [Action.pcm, phaseAfter, markedAfter, hpc, hmark, Sender.sending, Sender.tail, AtSender]
    exact h.messages

theorem Ordered.step (h : Ordered p s) {a : Action} (hc : s.inTurn c p a) (hu : s.unraced c a)
    (hs : step c s a = some s') : Ordered p s' := by
  cases a with
  | connect clientId | stop =>
    obtain ⟨g, hg, rfl⟩ := step_eq hs
    cases hg
    exact h.proceed rfl (List.append_nil _) rfl rfl h.sender h.messages rfl id
      (fun _ hun => ⟨hun.sending, hun.tail, hun.egress, id⟩) fun _ => rfl
  | disconnect => cases hc
  | call n operation => exact h.call hc hs
  | caller n io => exact h.callerStep hc hs
  | sender io => exact h.senderStep hc hu hs

end Talk

/-- A stop goes out behind all audio published before it, in every run without one of the races. -/
theorem stop_follows_audio (c : Config) (p : ℕ) (s : Talk)
    (h : (Talk.system c).ReachableBy (fun s a => s.inTurn c p a ∧ s.unraced c a) s)
    (hstop : s.sendsStop) : s.Delivered := by
  have ho : Talk.Ordered p s := by
    apply h.invariant
    · rintro s rfl
      exact Talk.ordered_new
    · intro s a s' _ ho hc hs
      exact ho.step hc.1 hc.2 hs
  have hsender := ho.sender
  obtain ⟨message, hpc | ⟨hpc, hstop⟩⟩ := hstop
  · rw [hpc] at hsender
    obtain ⟨hegress, hpcm, -, -, hidle⟩ := hsender
    exact ho.delivered (by rw [hpc]; rfl) (by rw [hpc]; rfl) hidle hegress hpcm
  · rw [hpc] at hsender
    exact absurd hstop hsender

/-- An answering clock that stands still. -/
def Io.still : Io := ⟨0, true, some []⟩

/-- A reply's start, audio and stop, each call to its end. -/
def startCall : List Action :=
  .call 0 (.publishMessage ⟨some "tts", some "start", none, []⟩) ::
    List.replicate 4 (.caller 0 .still)

def audioCall (pcm : List UInt8) : List Action :=
  .call 0 (.publishAudio pcm) :: List.replicate 5 (.caller 0 .still)

def stopCall : List Action :=
  .call 0 (.publishMessage ⟨some "tts", some "stop", none, []⟩) ::
    List.replicate 3 (.caller 0 .still)

def senderSteps (n : ℕ) : List Action := List.replicate n (.sender .still)

def wholeReply : List Action :=
  .connect "" :: startCall ++ audioCall [1, 2] ++ stopCall ++ senderSteps 18

theorem stop_follows_audio_reply : ∃ s, (Talk.system .tiny).Reachable s ∧ s.sendsStop ∧
    s.Delivered := by
  obtain ⟨s, hr, hs⟩ := exists_reachableBy_of_runBy (M := Talk.system .tiny)
    (C := fun s a => s.inTurn .tiny 0 a ∧ s.unraced .tiny a) (s := ⟨.new, .silent, [], false⟩) rfl
    wholeReply (fun s => s.gateway.sender matches .sendsStop _) (by decide +kernel)
  have hstop : s.sendsStop := by
    cases hpc : s.gateway.sender <;> simp [hpc] at hs
    exact ⟨_, .inl hpc⟩
  exact ⟨s, hr.reachable, hstop, stop_follows_audio .tiny 0 s hr hstop⟩

/-- The queue is found empty, then the last audio and the stop are published, then the stop is
judged. -/
def lateAudio : List Action :=
  .connect "" :: startCall ++ audioCall [1, 2] ++ senderSteps 15 ++ audioCall [3, 4] ++ stopCall ++
    senderSteps 3

/-- The next reply's audio is noted before the last one is forgotten. -/
def earlyStart : List Action :=
  wholeReply ++ senderSteps 1 ++ startCall ++ audioCall [3, 4, 5] ++ senderSteps 1 ++ stopCall ++
    senderSteps 16

/-- A stop goes out in front of a queued packet, and in front of a remainder. -/
theorem stop_overtakes_audio :
    (∃ s, (Talk.system .tiny).ReachableBy (Talk.inTurn .tiny 0) s ∧ s.sendsStop ∧
      s.gateway.egress ≠ []) ∧
    ∃ s, (Talk.system .tiny).ReachableBy (Talk.inTurn .tiny 0) s ∧ s.sendsStop ∧
      s.gateway.egressPcm ≠ [] := by
  constructor
  · obtain ⟨s, hr, hs⟩ := exists_reachableBy_of_runBy (M := Talk.system .tiny)
      (C := Talk.inTurn .tiny 0) (s := ⟨.new, .silent, [], false⟩) rfl lateAudio
      (fun s => (s.gateway.sender matches .sendsStop _) && s.gateway.egress != []) (by decide +kernel)
    rw [Bool.and_eq_true] at hs
    refine ⟨s, hr, ?_, by simpa using hs.2⟩
    cases hpc : s.gateway.sender <;> simp [hpc] at hs
    exact ⟨_, .inl hpc⟩
  · obtain ⟨s, hr, hs⟩ := exists_reachableBy_of_runBy (M := Talk.system .tiny)
      (C := Talk.inTurn .tiny 0) (s := ⟨.new, .silent, [], false⟩) rfl earlyStart
      (fun s => (s.gateway.sender matches .sendsStop _) && s.gateway.egressPcm != [])
      (by decide +kernel)
    rw [Bool.and_eq_true] at hs
    refine ⟨s, hr, ?_, by simpa using hs.2⟩
    cases hpc : s.gateway.sender <;> simp [hpc] at hs
    exact ⟨_, .inl hpc⟩

end Muxiva.Xiaozhi
