import Muxiva.Lib.Blocks
import Muxiva.Xiaozhi.Gateway

/-! How `publish_audio` reblocks PCM. One thread publishes, the sender takes packets off the queue
all the while, and the tail is flushed when nothing more is published. -/
set_option linter.all false
namespace Muxiva.Xiaozhi

open Transition Transition.System

def pcmValues (pcm : List PcmByte) : List UInt8 := pcm.map PcmByte.value

theorem pcmValues_append (a b : List PcmByte) : pcmValues (a ++ b) = pcmValues a ++ pcmValues b :=
  List.map_append

theorem pcmValues_flatten (blocks : List (List PcmByte)) :
    pcmValues blocks.flatten = (blocks.map pcmValues).flatten :=
  List.map_flatten

namespace Caller

/-- In `publish_audio`. -/
def publishing : Caller → Bool
  | .publishChecks .. | .publishExtends .. | .publishMarks .. | .publishQueues .. => true
  | _ => false

/-- In `reset_egress`. -/
def resetting : Caller → Bool
  | .resetDrains .. | .resetClears .. | .resetForgets .. => true
  | _ => false

/-- The bytes of the call that are not in the buffer yet. -/
def unread : Caller → List UInt8
  | .publishChecks _ pcm | .publishExtends _ pcm => pcm
  | _ => []

/-- The frames cut that are not encoded yet. -/
def framesCut : Caller → List (List PcmByte)
  | .publishMarks frames | .publishQueues frames => frames
  | _ => []

theorem nothing_held {pc : Caller} (h : pc.publishing = false) :
    pc.framesCut = [] ∧ pc.unread = [] := by
  cases pc <;> simp_all [publishing, framesCut, unread]

end Caller

/-- The tail taken off the buffer and not encoded yet. -/
def Sender.tail : Sender → List (List PcmByte)
  | .queuesTail tail => [tail]
  | _ => []

namespace Gateway

/-- The block the step passes to the encoder. -/
def encodes (s : Gateway) : Action → List (List PcmByte)
  | .caller n _ =>
    match s.callers n with
    | .publishQueues (frame :: _) => [frame]
    | _ => []
  | .sender _ => s.sender.tail
  | _ => []

/-- The packet the sender takes off the queue. -/
def takes (s : Gateway) : Action → List Packet
  | .sender _ => if s.sender = .takesPacket then s.egress.take 1 else []
  | _ => []

/-- Whether the step empties the buffer for a tail flush. -/
def flushes (s : Gateway) : Action → Bool
  | .sender _ => s.sender = .flushesTail ∧ s.egressPcm ≠ []
  | _ => false

/-- The encoder succeeds and the queue has room, if the step encodes. -/
def queuesFreely (c : Config) (s : Gateway) (a : Action) (io : Io) : Prop :=
  s.encodes a = [] ∨ io.opus.isSome ∧ s.egress.length < c.egressFrames

instance (c : Config) (s : Gateway) (a : Action) (io : Io) : Decidable (s.queuesFreely c a io) :=
  inferInstanceAs (Decidable (_ ∨ _))

end Gateway

/-- The gateway, with what was passed to `publish_audio`, the blocks passed to the encoder, the
packets taken off the queue, and whether a tail was flushed. -/
structure Reblocker where
  gateway : Gateway
  input : List UInt8
  encoded : List (List PcmByte)
  taken : List Packet
  flushed : Bool

def Action.pcm : Action → List UInt8
  | .call _ (.publishAudio pcm) => pcm
  | _ => []

namespace Reblocker

def step (c : Config) (s : Reblocker) (a : Action) : Option Reblocker :=
  (s.gateway.step c a).map fun gateway => {
    gateway
    input := s.input ++ a.pcm
    encoded := s.encoded ++ s.gateway.encodes a
    taken := s.taken ++ s.gateway.takes a
    flushed := s.flushed || s.gateway.flushes a }

/-- Caller `p` alone publishes audio, to a connected client, and the tail is flushed after it; there
is no reset, no overflow and no failure of the encoder. -/
def singlePublisher (c : Config) (p : ℕ) (s : Reblocker) : Action → Prop
  | .connect _ | .stop | .call _ (.publishMessage _) => True
  | .disconnect | .call _ .resetEgress => False
  | .call n (.publishAudio _) => n = p ∧ s.flushed = false
  | .caller n io => s.gateway.hasClient ∧ s.gateway.queuesFreely c (.caller n io) io
  | .sender io => s.gateway.hasClient ∧ s.gateway.queuesFreely c (.sender io) io ∧
      (s.gateway.flushes (.sender io) → (s.gateway.callers p).publishing = false)

instance (c : Config) (p : ℕ) (s : Reblocker) : ∀ a, Decidable (singlePublisher c p s a)
  | .connect _ | .stop | .call _ (.publishMessage _) => instDecidableTrue
  | .disconnect | .call _ .resetEgress => instDecidableFalse
  | .call _ (.publishAudio _) | .caller _ _ | .sender _ => inferInstanceAs (Decidable (_ ∧ _))

def system (c : Config) : System Reblocker Action where
  init s := s = ⟨.new, [], [], [], false⟩
  step := step c

variable {c : Config} {p : ℕ} {s : Reblocker}

/-- Where the bytes passed to `publish_audio` are. -/
structure Blocked (c : Config) (p : ℕ) (s : Reblocker) : Prop where
  others : ∀ n, n ≠ p → (s.gateway.callers n).publishing = false
  resets : ∀ n, (s.gateway.callers n).resetting = false
  accounted : pcmValues (s.encoded.flatten ++ (s.gateway.callers p).framesCut.flatten ++
    s.gateway.sender.tail.flatten ++ s.gateway.egressPcm) ++ (s.gateway.callers p).unread = s.input
  short : s.gateway.egressPcm.length < c.pcmFrameBytes
  whole : s.flushed = false → s.gateway.sender.tail = [] ∧
    ∀ b ∈ s.encoded ++ (s.gateway.callers p).framesCut, b.length = c.pcmFrameBytes
  last : s.flushed = true → (s.gateway.callers p).publishing = false ∧ s.gateway.egressPcm = [] ∧
    ∃ full tail, s.encoded ++ s.gateway.sender.tail = full ++ [tail] ∧
      (∀ b ∈ full, b.length = c.pcmFrameBytes) ∧ tail ≠ [] ∧ tail.length < c.pcmFrameBytes
  queued : (s.taken ++ s.gateway.egress).map Packet.pcm = s.encoded

theorem blocked_new : Blocked c p ⟨.new, [], [], [], false⟩ := by
  have hpos : 0 < c.pcmFrameBytes := Nat.mul_pos c.frame_pos (by decide)
  constructor <;>
    simp [Gateway.new, Caller.publishing, Caller.resetting, Caller.framesCut, Caller.unread,
      Sender.tail, pcmValues, hpos]

/-- A step that moves no PCM. -/
theorem Blocked.frame (h : Blocked c p s) {g : Gateway} (hpcm : g.egressPcm = s.gateway.egressPcm)
    (hegress : g.egress = s.gateway.egress) (htail : g.sender.tail = s.gateway.sender.tail)
    (hp : g.callers p = s.gateway.callers p)
    (hothers : ∀ n, n ≠ p → (g.callers n).publishing = false)
    (hresets : ∀ n, (g.callers n).resetting = false) : Blocked c p { s with gateway := g } where
  others := hothers
  resets := hresets
  accounted := by
    simp only [hpcm, htail, hp]
    exact h.accounted
  short := by
    simp only [hpcm]
    exact h.short
  whole := by
    simp only [htail, hp]
    exact h.whole
  last := by
    simp only [hpcm, htail, hp]
    exact h.last
  queued := by
    simp only [hegress]
    exact h.queued

/-- A caller in `publish_message`, or one that begins or ends a call there. -/
theorem Blocked.moveTo (h : Blocked c p s) (g : Gateway) (n : ℕ) (pc : Caller)
    (hpcm : g.egressPcm = s.gateway.egressPcm) (hegress : g.egress = s.gateway.egress)
    (hsender : g.sender = s.gateway.sender) (hcallers : g.callers = s.gateway.callers)
    (hold : (s.gateway.callers n).framesCut = [] ∧ (s.gateway.callers n).unread = [])
    (hpc : pc.publishing = false ∧ pc.resetting = false) :
    Blocked c p { s with gateway := g.moveTo n pc } := by
  have hnew := Caller.nothing_held hpc.1
  by_cases hn : p = n
  · subst hn
    constructor
    · intro m hm
      simpa [Gateway.moveTo, hm, hcallers] using h.others m hm
    · intro m
      by_cases hm : m = p
      · simp [Gateway.moveTo, hm, hpc.2]
      · simpa [Gateway.moveTo, hm, hcallers] using h.resets m
    · have haccounted := h.accounted
      rw [hold.1, hold.2] at haccounted
      simpa [Gateway.moveTo, hnew, hsender, hpcm] using haccounted
    · simpa [Gateway.moveTo, hpcm] using h.short
    · have hwhole := h.whole
      rw [hold.1] at hwhole
      simpa [Gateway.moveTo, hnew, hsender] using hwhole
    · intro hflushed
      simpa [Gateway.moveTo, hpc.1, hsender, hpcm] using (h.last hflushed).2
    · simpa [Gateway.moveTo, hegress] using h.queued
  · refine h.frame (g := g.moveTo n pc) hpcm hegress (by rw [← hsender]; rfl) ?_ ?_ ?_
    · simp [Gateway.moveTo, hn, hcallers]
    · intro m hm
      by_cases hmn : m = n
      · simp [Gateway.moveTo, hmn, hpc.1]
      · simpa [Gateway.moveTo, hmn, hcallers] using h.others m hm
    · intro m
      by_cases hmn : m = n
      · simp [Gateway.moveTo, hmn, hpc.2]
      · simpa [Gateway.moveTo, hmn, hcallers] using h.resets m

/-- Caller `p` goes on with its call: what it holds, what is encoded and what is buffered changes
hands. -/
theorem Blocked.publish (h : Blocked c p s) (hflushed : s.flushed = false) (g : Gateway)
    (pc : Caller) (input : List UInt8) (block : List (List PcmByte))
    (hsender : g.sender = s.gateway.sender) (hcallers : g.callers = s.gateway.callers)
    (hpc : pc.resetting = false)
    (hmoved : pcmValues (block.flatten ++ pc.framesCut.flatten ++ g.egressPcm) ++ pc.unread =
      pcmValues ((s.gateway.callers p).framesCut.flatten ++ s.gateway.egressPcm) ++
        (s.gateway.callers p).unread ++ input)
    (hshort : g.egressPcm.length < c.pcmFrameBytes)
    (hframes : ∀ b ∈ block ++ pc.framesCut, b.length = c.pcmFrameBytes)
    (hqueued : g.egress.map Packet.pcm = s.gateway.egress.map Packet.pcm ++ block) :
    Blocked c p { s with
      gateway := g.moveTo p pc
      input := s.input ++ input
      encoded := s.encoded ++ block } := by
  obtain ⟨htail, hwhole⟩ := h.whole hflushed
  constructor
  · intro m hm
    simpa [Gateway.moveTo, hm, hcallers] using h.others m hm
  · intro m
    by_cases hm : m = p
    · simp [Gateway.moveTo, hm, hpc]
    · simpa [Gateway.moveTo, hm, hcallers] using h.resets m
  · have haccounted := h.accounted
    simp only [htail, List.flatten_nil, List.append_nil] at haccounted
    simp only [Gateway.moveTo, Function.update_self, hsender, htail, List.flatten_nil,
      List.append_nil, ← haccounted]
    simp only [pcmValues, List.flatten_append, List.map_append, List.append_assoc] at hmoved ⊢
    rw [hmoved]
  · exact hshort
  · intro _
    refine ⟨by simpa [Gateway.moveTo, hsender] using htail, ?_⟩
    simp only [Gateway.moveTo, Function.update_self, List.append_assoc]
    intro b hb
    rcases List.mem_append.mp hb with hb | hb
    · exact hwhole b (List.mem_append_left _ hb)
    · exact hframes b hb
  · intro htrue
    rw [hflushed] at htrue
    cases htrue
  · have hq := h.queued
    simp only [Gateway.moveTo, List.map_append, hqueued, ← hq, List.append_assoc]

theorem step_eq {a : Action} {s' : Reblocker} (hs : step c s a = some s') :
    ∃ g, s.gateway.step c a = some g ∧ s' = {
      gateway := g
      input := s.input ++ a.pcm
      encoded := s.encoded ++ s.gateway.encodes a
      taken := s.taken ++ s.gateway.takes a
      flushed := s.flushed || s.gateway.flushes a } := by
  obtain ⟨g, hg, heq⟩ := Option.map_eq_some_iff.mp hs
  exact ⟨g, hg, heq.symm⟩

/-- A caller's step that encodes nothing. -/
theorem silent_caller {n : ℕ} {io : Io} {pc : Caller} {g : Gateway}
    (hpc : s.gateway.callers n = pc) (hpublishing : pc.publishing = false) : ({
      gateway := g
      input := s.input ++ (Action.caller n io).pcm
      encoded := s.encoded ++ s.gateway.encodes (.caller n io)
      taken := s.taken ++ s.gateway.takes (.caller n io)
      flushed := s.flushed || s.gateway.flushes (.caller n io) } : Reblocker) =
    { s with gateway := g } := by
  have hencodes : s.gateway.encodes (.caller n io) = [] := by
    cases pc <;> simp_all [Gateway.encodes, Caller.publishing]
  simp [hencodes, Action.pcm, Gateway.takes, Gateway.flushes]

/-- Only `p` publishes, and only before the tail is flushed. -/
theorem Blocked.publisher (h : Blocked c p s) {n : ℕ}
    (hn : (s.gateway.callers n).publishing = true) : n = p ∧ s.flushed = false := by
  have heq : n = p := by
    by_contra hne
    rw [h.others n hne] at hn
    cases hn
  refine ⟨heq, ?_⟩
  cases hf : s.flushed with
  | false => rfl
  | true =>
    have hquiet := (h.last hf).1
    rw [← heq, hn] at hquiet
    cases hquiet

theorem Blocked.call (h : Blocked c p s) {n : ℕ} {operation : Operation} {s' : Reblocker}
    (hc : singlePublisher c p s (.call n operation)) (hs : step c s (.call n operation) = some s') :
    Blocked c p s' := by
  obtain ⟨g, hg, rfl⟩ := step_eq hs
  simp only [Gateway.step, Gateway.call] at hg
  split at hg
  case h_1 hidle =>
    cases operation with
    | publishAudio pcm =>
      obtain ⟨rfl, hflushed⟩ := hc
      cases hg
      have hmove := h.publish hflushed { s.gateway with calls := s.gateway.calls + 1 }
        (.publishChecks s.gateway.calls pcm) pcm [] rfl rfl rfl
        (by simp [hidle, Caller.framesCut, Caller.unread]) h.short (by simp [Caller.framesCut])
        (by simp)
      simpa [Gateway.encodes, Gateway.takes, Gateway.flushes, Action.pcm] using hmove
    | publishMessage payload =>
      cases hg
      have hmove := h.moveTo s.gateway n (.messageChecks payload) rfl rfl rfl rfl
        (by simp [hidle, Caller.framesCut, Caller.unread]) ⟨rfl, rfl⟩
      simpa [Gateway.encodes, Gateway.takes, Gateway.flushes, Action.pcm] using hmove
    | resetEgress => cases hc
  case h_2 => cases hg

theorem Blocked.caller (h : Blocked c p s) {n : ℕ} {io : Io} {s' : Reblocker}
    (hc : singlePublisher c p s (.caller n io)) (hs : step c s (.caller n io) = some s') :
    Blocked c p s' := by
  obtain ⟨g, hg, rfl⟩ := step_eq hs
  obtain ⟨hclient, hqueues⟩ := hc
  simp only [Gateway.step, Gateway.stepCaller] at hg
  have hquiet := h.resets n
  cases hpc : s.gateway.callers n with
  | idle => simp [hpc] at hg
  | publishChecks call pcm =>
    obtain ⟨rfl, hflushed⟩ := h.publisher (n := n) (by rw [hpc]; rfl)
    simp only [hpc, hclient, if_true, Option.some.injEq] at hg
    subst hg
    have hmove := h.publish hflushed s.gateway (.publishExtends call pcm) [] [] rfl rfl rfl
      (by simp [hpc, Caller.framesCut, Caller.unread]) h.short (by simp [Caller.framesCut]) (by simp)
    simpa [Gateway.encodes, Gateway.takes, Gateway.flushes, Action.pcm, hpc] using hmove
  | publishExtends call pcm =>
    obtain ⟨rfl, hflushed⟩ := h.publisher (n := n) (by rw [hpc]; rfl)
    have hsize : 0 < c.pcmFrameBytes := Nat.mul_pos c.frame_pos (by decide)
    have hcut := cutFrames_spec hsize
      (le_refl (s.gateway.egressPcm ++ pcm.map fun value => (⟨value, call⟩ : PcmByte)).length)
    simp only [hpc, Option.some.injEq] at hg
    generalize cutFrames _ _ _ = cut at hcut hg
    obtain ⟨hflatten, hframes, hrest⟩ := hcut
    subst hg
    have hmove := h.publish hflushed { s.gateway with egressPcm := cut.2 } (.publishMarks cut.1)
      [] [] rfl rfl rfl
      (by
        simp only [List.flatten_nil, List.nil_append, Caller.framesCut, Caller.unread, hpc,
          List.append_nil, hflatten]
        simp [pcmValues, Function.comp_def])
      hrest (by simpa [Caller.framesCut] using hframes) (by simp)
    simpa [Gateway.encodes, Gateway.takes, Gateway.flushes, Action.pcm, hpc] using hmove
  | publishMarks frames =>
    obtain ⟨rfl, hflushed⟩ := h.publisher (n := n) (by rw [hpc]; rfl)
    simp only [hpc, Option.some.injEq] at hg
    subst hg
    have hwhole := (h.whole hflushed).2
    have hmove := h.publish hflushed
      { s.gateway with ttsAudioSeen := true, ttsLastAudioAt := io.now } (.publishQueues frames)
      [] [] rfl rfl rfl
      (by simp [hpc, Caller.framesCut, Caller.unread]) h.short
      (fun b hb => hwhole b (List.mem_append_right _ (by simpa [hpc, Caller.framesCut] using hb)))
      (by simp)
    simpa [Gateway.encodes, Gateway.takes, Gateway.flushes, Action.pcm, hpc] using hmove
  | publishQueues frames =>
    obtain ⟨rfl, hflushed⟩ := h.publisher (n := n) (by rw [hpc]; rfl)
    have hwhole := (h.whole hflushed).2
    cases frames with
    | nil =>
      simp only [hpc, Option.some.injEq] at hg
      subst hg
      have hmove := h.moveTo s.gateway n .idle rfl rfl rfl rfl
        (by simp [hpc, Caller.framesCut, Caller.unread]) ⟨rfl, rfl⟩
      simpa [Gateway.encodes, Gateway.takes, Gateway.flushes, Action.pcm, hpc] using hmove
    | cons frame frames =>
      simp only [hpc, Option.some.injEq] at hg
      subst hg
      have hencodes : s.gateway.encodes (.caller n io) = [frame] := by simp [Gateway.encodes, hpc]
      obtain ⟨opus, hopus⟩ : ∃ opus, io.opus = some opus := by
        rcases hqueues with hnone | hroom
        · simp [hencodes] at hnone
        · exact Option.isSome_iff_exists.mp hroom.1
      have hroom : s.gateway.egress.length < c.egressFrames := by
        rcases hqueues with hnone | hroom
        · simp [hencodes] at hnone
        · exact hroom.2
      have hmove := h.publish hflushed
        { s.gateway with egress := s.gateway.egress ++ [⟨opus, frame⟩] } (.publishQueues frames)
        [] [frame] rfl rfl rfl
        (by simp [hpc, Caller.framesCut, Caller.unread]) h.short
        (fun b hb => hwhole b (List.mem_append_right _ (by simpa [hpc, Caller.framesCut] using hb)))
        (by simp)
      simpa [hencodes, Gateway.takes, Gateway.flushes, Action.pcm, Gateway.encodeAndQueue, hopus,
        hroom] using hmove
  | messageChecks payload =>
    simp only [hpc, hclient, if_true, Option.some.injEq] at hg
    subst hg
    rw [silent_caller hpc rfl]
    exact h.moveTo _ _ _ rfl rfl rfl rfl (by simp [hpc, Caller.framesCut, Caller.unread]) ⟨rfl, rfl⟩
  | messageBuilds payload =>
    simp only [hpc, Option.some.injEq] at hg
    subst hg
    rw [silent_caller hpc rfl]
    refine h.moveTo _ _ _ rfl rfl rfl rfl (by simp [hpc, Caller.framesCut, Caller.unread]) ?_
    split <;> exact ⟨rfl, rfl⟩
  | messageMarks message =>
    simp only [hpc] at hg
    split at hg <;> cases hg <;> rw [silent_caller hpc rfl] <;>
      exact h.moveTo _ _ _ rfl rfl rfl rfl (by simp [hpc, Caller.framesCut, Caller.unread]) ⟨rfl, rfl⟩
  | messagePuts message =>
    simp only [hpc] at hg
    split at hg <;> cases hg <;> rw [silent_caller hpc rfl] <;>
      exact h.moveTo _ _ _ rfl rfl rfl rfl (by simp [hpc, Caller.framesCut, Caller.unread]) ⟨rfl, rfl⟩
  | resetDrains before | resetClears before | resetForgets before =>
    rw [hpc] at hquiet
    cases hquiet

/-- A step of the sender that moves no PCM. -/
theorem Blocked.idles (h : Blocked c p s) {io : Io} {g : Gateway}
    (hpcm : g.egressPcm = s.gateway.egressPcm) (hegress : g.egress = s.gateway.egress)
    (hcallers : g.callers = s.gateway.callers) (htail : g.sender.tail = [])
    (hencodes : s.gateway.sender.tail = []) (htakes : s.gateway.takes (.sender io) = [])
    (hflushes : s.gateway.flushes (.sender io) = false) : Blocked c p {
      gateway := g
      input := s.input ++ (Action.sender io).pcm
      encoded := s.encoded ++ s.gateway.encodes (.sender io)
      taken := s.taken ++ s.gateway.takes (.sender io)
      flushed := s.flushed || s.gateway.flushes (.sender io) } := by
  have hframe := h.frame hpcm hegress (htail.trans hencodes.symm) (by rw [hcallers])
    (fun n hn => by simpa [hcallers] using h.others n hn)
    (fun n => by simpa [hcallers] using h.resets n)
  simpa [Gateway.encodes, hencodes, htakes, hflushes, Action.pcm] using hframe

/-- The other steps of the sender leave the queue and the buffer alone. -/
theorem stepSender_idles {s g : Gateway} {io : Io} (hpc : s.sender ≠ .takesPacket ∧
    s.sender ≠ .flushesTail ∧ s.sender.tail = []) (hg : s.stepSender c io = some g) :
    g.egressPcm = s.egressPcm ∧ g.egress = s.egress ∧ g.callers = s.callers ∧
      g.sender.tail = [] := by
  obtain ⟨htakes, hflushes, htail⟩ := hpc
  simp only [Gateway.stepSender] at hg
  cases hpc : s.sender with
  | takesPacket => exact absurd hpc htakes
  | flushesTail => exact absurd hpc hflushes
  | queuesTail tail => simp [hpc, Sender.tail] at htail
  | exited => simp [hpc] at hg
  | top =>
    simp only [hpc, Option.some.injEq] at hg
    subst hg
    refine ⟨rfl, rfl, rfl, ?_⟩
    dsimp only
    split <;> rfl
  | takesStop =>
    simp only [hpc, Option.some.injEq] at hg
    subst hg
    refine ⟨rfl, rfl, rfl, ?_⟩
    cases s.ttsStopMessage <;> rfl
  | drainsMessages | sendsMessage message | readsPlayback | checksPrebuffer a b | startsPlayback
  | sendsPacket packet | marksPacket | judgesStop | sendsStop message | endsPlayback =>
    simp only [hpc] at hg
    (repeat' split at hg) <;> cases hg <;> exact ⟨rfl, rfl, rfl, rfl⟩

theorem Blocked.takesPacket (h : Blocked c p s) {packet : Packet} {egress : List Packet}
    (sender : Sender) (hegress : s.gateway.egress = packet :: egress)
    (htail : sender.tail = s.gateway.sender.tail) :
    Blocked c p { s with
      gateway := { s.gateway with egress, sender }
      taken := s.taken ++ [packet] } where
  others := h.others
  resets := h.resets
  accounted := by
    simp only [htail]
    exact h.accounted
  short := h.short
  whole := by
    simp only [htail]
    exact h.whole
  last := by
    simp only [htail]
    exact h.last
  queued := by simpa [hegress] using h.queued

theorem Blocked.flushesTail (h : Blocked c p s) (hpcm : s.gateway.egressPcm ≠ [])
    (hquiet : (s.gateway.callers p).publishing = false) :
    Blocked c p { s with
      gateway := { s.gateway with egressPcm := [], sender := .queuesTail s.gateway.egressPcm }
      flushed := true } := by
  have hflushed : s.flushed = false := by
    cases hf : s.flushed with
    | false => rfl
    | true => exact absurd (h.last hf).2.1 hpcm
  obtain ⟨htail, hwhole⟩ := h.whole hflushed
  obtain ⟨hframes, -⟩ := Caller.nothing_held hquiet
  constructor
  · exact h.others
  · exact h.resets
  · have haccounted := h.accounted
    rw [htail] at haccounted
    simpa [Sender.tail] using haccounted
  · exact Nat.zero_lt_of_lt h.short
  · intro hfalse
    cases hfalse
  · intro _
    rw [hframes, List.append_nil] at hwhole
    exact ⟨hquiet, rfl, s.encoded, s.gateway.egressPcm, rfl, hwhole, hpcm, h.short⟩
  · exact h.queued

/-- The tail is encoded and queued. -/
theorem Blocked.queuesTail (h : Blocked c p s) {tail : List PcmByte} (opus : List UInt8)
    (hsender : s.gateway.sender = .queuesTail tail) :
    Blocked c p { s with
      gateway := { s.gateway with
        egress := s.gateway.egress ++ [⟨opus, tail⟩]
        sender := .top }
      encoded := s.encoded ++ [tail] } := by
  have hflushed : s.flushed = true := by
    cases hf : s.flushed with
    | true => rfl
    | false =>
      have htail := (h.whole hf).1
      simp [hsender, Sender.tail] at htail
  obtain ⟨hquiet, hpcm, hlast⟩ := h.last hflushed
  obtain ⟨hframes, -⟩ := Caller.nothing_held hquiet
  constructor
  · exact h.others
  · exact h.resets
  · have haccounted := h.accounted
    rw [hsender, hframes] at haccounted
    simpa [Sender.tail, hframes] using haccounted
  · exact h.short
  · intro hfalse
    rw [hflushed] at hfalse
    cases hfalse
  · intro _
    refine ⟨hquiet, hpcm, ?_⟩
    simpa [hsender, Sender.tail] using hlast
  · have hqueued := h.queued
    simp [← hqueued]

theorem Blocked.sender (h : Blocked c p s) {io : Io} {s' : Reblocker}
    (hc : singlePublisher c p s (.sender io)) (hs : step c s (.sender io) = some s') :
    Blocked c p s' := by
  obtain ⟨g, hg, rfl⟩ := step_eq hs
  obtain ⟨hclient, hqueues, hafter⟩ := hc
  simp only [Gateway.step, Gateway.stepSender] at hg
  cases hpc : s.gateway.sender with
  | takesPacket =>
    cases hegress : s.gateway.egress with
    | nil =>
      simp only [hpc, hegress, Option.some.injEq] at hg
      subst hg
      apply h.idles <;> simp [hpc, hegress, Sender.tail, Gateway.takes, Gateway.flushes]
    | cons packet egress =>
      simp only [hpc, hegress, Option.some.injEq] at hg
      subst hg
      have hmove := h.takesPacket (.sendsPacket packet) hegress (by rw [hpc]; rfl)
      simpa [Gateway.encodes, Gateway.takes, Gateway.flushes, Action.pcm, hpc, hegress, Sender.tail]
        using hmove
  | flushesTail =>
    by_cases hpcm : s.gateway.egressPcm = []
    · simp only [hpc, hpcm, List.isEmpty_nil, if_true, Option.some.injEq] at hg
      subst hg
      apply h.idles <;> simp [hpc, hpcm, Sender.tail, Gateway.takes, Gateway.flushes]
    · simp only [hpc, List.isEmpty_iff, hpcm, if_false, Option.some.injEq] at hg
      subst hg
      have hmove := h.flushesTail hpcm (hafter (by simp [Gateway.flushes, hpc, hpcm]))
      simpa [Gateway.encodes, Gateway.takes, Gateway.flushes, Action.pcm, hpc, hpcm, Sender.tail]
        using hmove
  | queuesTail tail =>
    have hencodes : s.gateway.encodes (.sender io) = [tail] := by
      simp [Gateway.encodes, hpc, Sender.tail]
    obtain ⟨hopus, hroom⟩ := hqueues.resolve_left (by simp [hencodes])
    obtain ⟨opus, hopus⟩ := Option.isSome_iff_exists.mp hopus
    simp only [hpc, Gateway.encodeAndQueue, hopus, hroom, if_true, Option.some.injEq] at hg
    subst hg
    have hmove := h.queuesTail opus hpc
    simpa [hencodes, Gateway.takes, Gateway.flushes, Action.pcm, hpc] using hmove
  | exited => simp [hpc] at hg
  | top | drainsMessages | sendsMessage message | readsPlayback | checksPrebuffer a b
  | startsPlayback | sendsPacket packet | marksPacket | judgesStop | takesStop | sendsStop message
  | endsPlayback =>
    obtain ⟨hpcm, hegress, hcallers, htail⟩ := stepSender_idles
      (by rw [hpc]; exact ⟨nofun, nofun, rfl⟩) hg
    exact h.idles hpcm hegress hcallers htail (by rw [hpc]; rfl) (by simp [Gateway.takes, hpc])
      (by simp [Gateway.flushes, hpc])

theorem Blocked.step (h : Blocked c p s) {a : Action} {s' : Reblocker}
    (hc : singlePublisher c p s a) (hs : step c s a = some s') : Blocked c p s' := by
  cases a with
  | connect clientId =>
    obtain ⟨g, hg, rfl⟩ := step_eq hs
    cases hg
    have hframe := h.frame (g := { s.gateway with ws := some clientId }) rfl rfl rfl rfl h.others
      h.resets
    simpa [Gateway.encodes, Gateway.takes, Gateway.flushes, Action.pcm] using hframe
  | stop =>
    obtain ⟨g, hg, rfl⟩ := step_eq hs
    cases hg
    have hframe := h.frame (g := { s.gateway with stopped := true }) rfl rfl rfl rfl h.others
      h.resets
    simpa [Gateway.encodes, Gateway.takes, Gateway.flushes, Action.pcm] using hframe
  | disconnect => cases hc
  | call n operation => exact h.call hc hs
  | caller n io => exact h.caller hc hs
  | sender io => exact h.sender hc hs

end Reblocker

/-- In every state with nothing in hand: the blocks passed to the encoder have all been queued, with
the buffer behind them they are the input, and they are its whole blocks, once the tail was flushed
with the rest as a shorter one. -/
theorem pcm_reblocked (c : Config) (p : ℕ) (s : Reblocker)
    (h : (Reblocker.system c).ReachableBy (Reblocker.singlePublisher c p) s)
    (hcall : (s.gateway.callers p).publishing = false) (htail : s.gateway.sender.tail = []) :
    (s.taken ++ s.gateway.egress).map Packet.pcm = s.encoded ∧
    s.encoded.flatMap pcmValues ++ pcmValues s.gateway.egressPcm = s.input ∧
    (s.flushed = false → s.encoded.map pcmValues = Blocks.whole c.pcmFrameBytes s.input ∧
      pcmValues s.gateway.egressPcm = Blocks.rest c.pcmFrameBytes s.input) ∧
    (s.gateway.egressPcm = [] → s.encoded.map pcmValues = Blocks.padded c.pcmFrameBytes s.input) := by
  have hb : Reblocker.Blocked c p s := by
    apply h.invariant
    · rintro s rfl
      exact Reblocker.blocked_new
    · intro s a s' _ hb hc hs
      exact hb.step hc hs
  obtain ⟨hframes, hunread⟩ := Caller.nothing_held hcall
  have haccounted : (s.encoded.map pcmValues).flatten ++ pcmValues s.gateway.egressPcm = s.input := by
    have hall := hb.accounted
    rw [hframes, hunread, htail] at hall
    simpa only [List.flatten_nil, List.append_nil, pcmValues_append, pcmValues_flatten] using hall
  have hlength : ∀ pcm, (pcmValues pcm).length = pcm.length := fun pcm => List.length_map _
  have hshort : (pcmValues s.gateway.egressPcm).length < c.pcmFrameBytes := by
    rw [hlength]
    exact hb.short
  have hunflushed : s.flushed = false →
      s.encoded.map pcmValues = Blocks.whole c.pcmFrameBytes s.input ∧
        pcmValues s.gateway.egressPcm = Blocks.rest c.pcmFrameBytes s.input := by
    intro hflushed
    have hwhole : ∀ b ∈ s.encoded.map pcmValues, b.length = c.pcmFrameBytes := by
      intro b hb'
      obtain ⟨block, hblock, rfl⟩ := List.mem_map.mp hb'
      rw [hlength]
      exact (hb.whole hflushed).2 block (List.mem_append_left _ hblock)
    rw [← haccounted, Blocks.whole_flatten hwhole hshort, Blocks.rest_flatten hwhole hshort]
    exact ⟨rfl, rfl⟩
  refine ⟨hb.queued, by simpa [List.flatMap] using haccounted, hunflushed, fun hempty => ?_⟩
  cases hflushed : s.flushed with
  | false =>
    obtain ⟨hwhole, hrest⟩ := hunflushed hflushed
    have hnil : Blocks.rest c.pcmFrameBytes s.input = [] := by
      rw [← hrest, hempty]
      rfl
    simp [Blocks.padded, hnil, hwhole]
  | true =>
    obtain ⟨-, -, full, tail, hlast, hfull, hne, htail'⟩ := hb.last hflushed
    rw [htail, List.append_nil] at hlast
    have hwhole : ∀ b ∈ full.map pcmValues, b.length = c.pcmFrameBytes := by
      intro b hb'
      obtain ⟨block, hblock, rfl⟩ := List.mem_map.mp hb'
      rw [hlength]
      exact hfull block hblock
    have hshort' : (pcmValues tail).length < c.pcmFrameBytes := by
      rw [hlength]
      exact htail'
    have hinput : (full.map pcmValues).flatten ++ pcmValues tail = s.input := by
      rw [← haccounted, hlast, hempty]
      simp [pcmValues]
    have hne' : pcmValues tail ≠ [] := by simpa [pcmValues] using hne
    rw [Blocks.padded, ← hinput, Blocks.whole_flatten hwhole hshort',
      Blocks.rest_flatten hwhole hshort', if_neg hne', hlast]
    simp

/-- Frames of two bytes, no waiting. -/
def Config.tiny : Config where
  sampleRate := 1000
  frameDurationMs := 1
  playbackPrebufferMs := 0
  playbackQueueMs := 8
  playbackStopGraceMs := 0
  playbackNoAudioStopTimeoutMs := 0
  frame_pos := by decide

/-- Three bytes in two calls, and the flush that a stop leads to. -/
def tailRun : List Action :=
  let io : Io := ⟨0, true, some []⟩
  [Action.connect "", .call 0 (.publishAudio [1]), .caller 0 io, .caller 0 io, .caller 0 io,
    .caller 0 io, .call 0 (.publishAudio [2, 3]), .caller 0 io, .caller 0 io, .caller 0 io, .caller 0 io,
    .caller 0 io, .call 1 (.publishMessage ⟨some "tts", some "stop", none, []⟩), .caller 1 io,
    .caller 1 io, .caller 1 io] ++ List.replicate 16 (Action.sender io)

theorem pcm_reblocked_tail : ∃ s, (Reblocker.system .tiny).Reachable s ∧ s.input = [1, 2, 3] ∧
    s.encoded.map pcmValues = Blocks.padded 2 [1, 2, 3] := by
  obtain ⟨s, hr, hs⟩ := exists_reachableBy_of_runBy (M := Reblocker.system .tiny)
    (C := Reblocker.singlePublisher .tiny 0) (s := ⟨.new, [], [], [], false⟩) rfl tailRun
    (fun s => s.input == [1, 2, 3] && s.gateway.egressPcm == [] &&
      !(s.gateway.callers 0).publishing && s.gateway.sender.tail == []) (by decide +kernel)
  simp only [Bool.and_eq_true, beq_iff_eq, Bool.not_eq_true'] at hs
  obtain ⟨⟨⟨hinput, hpcm⟩, hcall⟩, htail⟩ := hs
  have hblocks := (pcm_reblocked .tiny 0 s hr hcall htail).2.2.2 hpcm
  rw [hinput] at hblocks
  exact ⟨s, hr.reachable, hinput, hblocks⟩

end Muxiva.Xiaozhi
