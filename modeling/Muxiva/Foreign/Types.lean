import Muxiva.Runtime.Queue

/-! The owned values that cross into a foreign execution domain and back, with the byte
accounting of the two mailboxes. Sequence numbers, sizes and instants are naturals. -/
set_option linter.all false
namespace Muxiva.Foreign
open Muxiva.Runtime (saturatingAdd)

def maxMailboxItems : ℕ := 65536
def maxMailboxBytes : ℕ := 64 * 1024 * 1024
def maxInFlightLimit : ℕ := 4096
/-- One hour in nanoseconds. -/
def maxDuration : ℕ := 60 * 60 * 10 ^ 9
def diagnosticLimit : ℕ := 256

inductive ForeignOrdering where
  | strict
  | unordered
  deriving DecidableEq, Repr

inductive ForeignDriverError where
  | capacityTooLarge
  | byteCapacityTooLarge
  | zeroDeadline
  | deadlineTooLarge
  | duplicateSequence
  | strictSequenceGap
  deriving DecidableEq, Repr

/-- `ForeignDriverConfig`; each capacity is a `NonZeroUsize`, durations are nanoseconds. -/
structure ForeignDriverConfig where
  commandCapacity : ℕ
  commandByteCapacity : ℕ
  completionCapacity : ℕ
  completionByteCapacity : ℕ
  maxInFlight : ℕ
  perCallDeadline : ℕ
  shutdownDeadline : ℕ
  ordering : ForeignOrdering
  commandCapacity_pos : 0 < commandCapacity
  commandByteCapacity_pos : 0 < commandByteCapacity
  completionCapacity_pos : 0 < completionCapacity
  completionByteCapacity_pos : 0 < completionByteCapacity
  maxInFlight_pos : 0 < maxInFlight

def ForeignDriverConfig.validate (c : ForeignDriverConfig) : Except ForeignDriverError Unit :=
  if [c.commandCapacity, c.completionCapacity, c.maxInFlight].any fun capacity =>
      maxMailboxItems < capacity ∨ maxInFlightLimit < c.maxInFlight then
    .error .capacityTooLarge
  else if maxMailboxBytes < c.commandByteCapacity ∨ maxMailboxBytes < c.completionByteCapacity then
    .error .byteCapacityTooLarge
  else if c.perCallDeadline = 0 ∨ c.shutdownDeadline = 0 then .error .zeroDeadline
  else if maxDuration < c.perCallDeadline ∨ maxDuration < c.shutdownDeadline then
    .error .deadlineTooLarge
  else .ok ()

theorem ForeignDriverConfig.validate_bounds {c : ForeignDriverConfig} (h : c.validate = .ok ()) :
    c.maxInFlight ≤ maxInFlightLimit ∧ c.commandByteCapacity ≤ maxMailboxBytes ∧
      c.completionByteCapacity ≤ maxMailboxBytes := by
  unfold validate at h
  split_ifs at h with h1 h2
  simp only [List.any_cons, List.any_nil, Bool.or_false, Bool.or_eq_true, decide_eq_true_eq,
    not_or, not_lt] at h1 h2
  omega

theorem ForeignDriverConfig.perCallDeadline_le {c : ForeignDriverConfig}
    (h : c.validate = .ok ()) : c.perCallDeadline ≤ maxDuration := by
  unfold validate at h
  split_ifs at h with h1 h2 h3 h4
  omega

/-- A metadata value; a float is its bit pattern. -/
inductive Value where
  | null
  | bool (b : Bool)
  | integer (i : ℤ)
  | float (bits : ℕ)
  | string (s : String)
  | bytes (data : List UInt8)
  | list (values : List Value)
  | map (values : List (String × Value))

mutual

def valueBytes : Value → ℕ
  | .null => 8
  | .bool _ => 8
  | .integer _ => 8
  | .float _ => 8
  | .string s => s.utf8ByteSize
  | .bytes data => data.length
  | .list values => listBytes 8 values
  | .map values => mapBytes 8 values
termination_by structural v => v

def listBytes (acc : ℕ) : List Value → ℕ
  | [] => acc
  | v :: vs => listBytes (saturatingAdd acc (valueBytes v)) vs
termination_by structural vs => vs

def mapBytes (acc : ℕ) : List (String × Value) → ℕ
  | [] => acc
  | e :: es => mapBytes (saturatingAdd acc (entryBytes e)) es
termination_by structural es => es

def entryBytes : String × Value → ℕ
  | (key, v) => saturatingAdd key.utf8ByteSize (valueBytes v)
termination_by structural e => e

end

inductive FramePayload where
  | audio (buffer : List UInt8)
  | video (buffer : List UInt8)
  | text (s : String)
  | byte (buffer : List UInt8)
  | signal (payload : Value)
  | event (payload : Value)

/-- A frame, down to the parts the mailboxes account for. -/
structure OwnedFrame where
  payload : FramePayload
  metadata : List (String × Value)
  extensions : List (String × Value)

/-- A signal with its name, or an event with its topic. -/
structure OwnedNotice where
  name : String
  source : String
  payload : Value

def FramePayload.bytes : FramePayload → ℕ
  | .audio buffer => buffer.length
  | .video buffer => buffer.length
  | .text s => s.utf8ByteSize
  | .byte buffer => buffer.length
  | .signal payload => valueBytes payload
  | .event payload => valueBytes payload

def frameBytes (f : OwnedFrame) : ℕ :=
  let header := ((f.metadata ++ f.extensions).map entryBytes).foldl saturatingAdd 64
  saturatingAdd f.payload.bytes header

/-- `signal_bytes` and `event_bytes`. -/
def noticeBytes (f : OwnedNotice) : ℕ :=
  saturatingAdd (saturatingAdd (saturatingAdd 64 f.name.utf8ByteSize) f.source.utf8ByteSize)
    (valueBytes f.payload)

/-- `clamp(1, DIAGNOSTIC_LIMIT)` of the length of code and message. -/
def reasonBytes (r : AbortReason) : ℕ :=
  max 1 (min (saturatingAdd r.code.utf8ByteSize r.message.utf8ByteSize) diagnosticLimit)

inductive ForeignCommandKind where
  | prepare
  | processSource
  | process (frame : OwnedFrame)
  | processOnPort (frame : OwnedFrame) (inputPort : PortName)
  | signal (frame : OwnedNotice)
  | event (frame : OwnedNotice)
  | finish
  | cancel
  | abort (reason : AbortReason)
  | stop

structure ForeignCommand where
  sequence : ℕ
  kind : ForeignCommandKind

def ForeignCommand.commandBytes (command : ForeignCommand) : ℕ :=
  match command.kind with
  | .process frame => frameBytes frame
  | .processOnPort frame _ => frameBytes frame
  | .signal frame => noticeBytes frame
  | .event frame => noticeBytes frame
  | .abort reason => reasonBytes reason
  | .prepare | .processSource | .finish | .cancel | .stop => 1

structure ForeignCompletionEmission where
  outputPort : PortName
  frame : OwnedFrame

inductive ForeignCompletionKind where
  | success (frames : List OwnedFrame) (emissions : List ForeignCompletionEmission)
      (signals events : List OwnedNotice)
  | failure (reason : AbortReason)

structure ForeignCompletion where
  sequence : ℕ
  kind : ForeignCompletionKind

def ForeignCompletion.completionBytes (completion : ForeignCompletion) : ℕ :=
  match completion.kind with
  | .success frames emissions signals events =>
    (frames.map frameBytes ++ emissions.map (fun emission => frameBytes emission.frame) ++
      signals.map noticeBytes ++ events.map noticeBytes).foldl saturatingAdd 1
  | .failure reason => reasonBytes reason

def fits (current addition capacity : ℕ) : Bool :=
  decide (current + addition < 2 ^ 64) && decide (current + addition ≤ capacity)

theorem fits_iff {current addition capacity : ℕ} (h : capacity ≤ maxMailboxBytes) :
    fits current addition capacity = true ↔ current + addition ≤ capacity := by
  have hlimit : maxMailboxBytes < 2 ^ 64 := by decide
  simp only [fits, Bool.and_eq_true, decide_eq_true_eq]
  omega

theorem le_foldl_saturatingAdd (xs : List ℕ) (acc : ℕ) (h : acc < 2 ^ 64) :
    acc ≤ xs.foldl saturatingAdd acc := by
  induction xs generalizing acc with
  | nil => exact le_refl acc
  | cons x xs ih =>
    have hacc : acc ≤ saturatingAdd acc x := by
      unfold saturatingAdd
      omega
    have hlt : saturatingAdd acc x < 2 ^ 64 := by
      unfold saturatingAdd
      omega
    exact hacc.trans (ih _ hlt)

theorem frameBytes_ge (f : OwnedFrame) : 64 ≤ frameBytes f := by
  have hheader := le_foldl_saturatingAdd ((f.metadata ++ f.extensions).map entryBytes) 64 (by decide)
  unfold frameBytes saturatingAdd at *
  dsimp only
  omega

theorem noticeBytes_ge (f : OwnedNotice) : 64 ≤ noticeBytes f := by
  unfold noticeBytes saturatingAdd
  omega

/-- A success that carries nothing takes one byte, any other takes at least 65. -/
theorem ForeignCompletion.completionBytes_success {completion : ForeignCompletion}
    {frames : List OwnedFrame} {emissions : List ForeignCompletionEmission}
    {signals events : List OwnedNotice}
    (h : completion.kind = .success frames emissions signals events) :
    completion.completionBytes = 1 ∨ 65 ≤ completion.completionBytes := by
  have hparts : ∀ x ∈ frames.map frameBytes ++
      emissions.map (fun emission => frameBytes emission.frame) ++
      signals.map noticeBytes ++ events.map noticeBytes, 64 ≤ x := by
    intro x hx
    simp only [List.mem_append, List.mem_map] at hx
    obtain ((⟨f, -, rfl⟩ | ⟨e, -, rfl⟩) | ⟨f, -, rfl⟩) | ⟨f, -, rfl⟩ := hx
    · exact frameBytes_ge f
    · exact frameBytes_ge e.frame
    · exact noticeBytes_ge f
    · exact noticeBytes_ge f
  unfold completionBytes
  simp only [h]
  generalize frames.map frameBytes ++ emissions.map (fun emission => frameBytes emission.frame) ++
    signals.map noticeBytes ++ events.map noticeBytes = parts at *
  cases parts with
  | nil => exact .inl rfl
  | cons x xs =>
    right
    have hx := hparts x List.mem_cons_self
    have hstep : 65 ≤ saturatingAdd 1 x := by
      unfold saturatingAdd
      omega
    exact hstep.trans (le_foldl_saturatingAdd xs _ (by unfold saturatingAdd; omega))

end Muxiva.Foreign
