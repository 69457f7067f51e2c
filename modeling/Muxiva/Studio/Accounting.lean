import Mathlib.Algebra.Order.BigOperators.Group.List
import Muxiva.Studio.Interleaved

/-! Two nested budgets. The frames that fit both are kept in a ledger, and the artifacts are what the
ledger says. -/
set_option linter.all false
namespace Muxiva.Studio

open Muxiva.Audio (PcmSampleFormat)
open Muxiva.Ffi (FramePayload)
open Muxiva.Runtime (saturatingAdd)
open Bytes (File)

/-- The frames that were kept, in capture order: their keys and their bytes. -/
abbrev Ledger := List (String × List UInt8)

namespace Ledger

def total (l : Ledger) : ℕ := (l.map (·.2.length)).sum

/-- What was kept under a key. -/
def under (l : Ledger) (key : String) : List (List UInt8) := (l.filter (·.1 = key)).map (·.2)

/-- Whether the bytes stay within the budget of the session and of their artifact. -/
def Affords (l : Ledger) (key : String) (bytes : List UInt8) : Prop :=
  l.total + bytes.length ≤ maxSessionBytes ∧
    (l.under key).flatten.length + bytes.length ≤ maxArtifactBytes

instance (l : Ledger) (key : String) (bytes : List UInt8) : Decidable (l.Affords key bytes) :=
  inferInstanceAs (Decidable (_ ∧ _))

def offer (l : Ledger) (captured : CapturedFrame) : Ledger :=
  match ArtifactSpecification.fromCapture captured with
  | none => l
  | some (key, _) =>
    if l.Affords key (payload captured.frame) then l ++ [(key, payload captured.frame)] else l

/-- The ledger of these frames. -/
def ofFrames (frames : List CapturedFrame) : Ledger := frames.foldl offer []

@[simp]
theorem total_append (l : Ledger) (entry : String × List UInt8) :
    total (l ++ [entry]) = l.total + entry.2.length := by
  simp [total]

@[simp]
theorem under_append_self (l : Ledger) (key : String) (bytes : List UInt8) :
    under (l ++ [(key, bytes)]) key = l.under key ++ [bytes] := by
  simp [under]

theorem under_append_of_ne (l : Ledger) {key other : String} (h : other ≠ key)
    (bytes : List UInt8) : under (l ++ [(key, bytes)]) other = l.under other := by
  simp [under, h.symm]

end Ledger

theorem saturatingAdd_small {a b : ℕ} (h : a + b < 2 ^ 64) : saturatingAdd a b = a + b := by
  unfold saturatingAdd
  omega

theorem artifactId_injective : Function.Injective artifactId := by
  intro m n h
  have hdigits := congrArg String.toList h
  unfold artifactId at hdigits
  simp only [String.toList_append, String.toList_ofList] at hdigits
  have hpadded := congrArg (fun digits => Nat.ofDigitChars 10 digits 0)
    (List.append_cancel_left hdigits)
  simpa only [Nat.ofDigitChars_append, Nat.ofDigitChars_replicate_zero, Nat.mul_zero,
    Nat.ofDigitChars_ten_toDigits] using hpadded

section Header

variable {sampleRateHz channels dataBytes : ℕ} {sampleFormat : PcmSampleFormat} {head : List UInt8}

/-- The header is 44 bytes, the last four the length of the data. -/
theorem wavHeader_ok (h : wavHeader sampleRateHz channels sampleFormat dataBytes = .ok head) :
    head.length = 44 ∧ head.drop 40 = Bytes.le 4 dataBytes := by
  unfold wavHeader at h
  dsimp only at h
  split_ifs at h
  cases h
  have hriff : (Utf8.bytes "RIFF").length = 4 := by decide
  have hwave : (Utf8.bytes "WAVEfmt ").length = 8 := by decide
  have hdata : (Utf8.bytes "data").length = 4 := by decide
  refine ⟨by simp only [List.length_append, Bytes.length_le, hriff, hwave, hdata], ?_⟩
  rw [List.drop_left']
  simp only [List.length_append, Bytes.length_le, hriff, hwave, hdata]

/-- Whether a header can be built does not depend on the data, up to 4 GiB. -/
theorem wavHeader_longer (h : wavHeader sampleRateHz channels sampleFormat 0 = .ok head)
    (hlt : dataBytes < 2 ^ 32) :
    ∃ longer, wavHeader sampleRateHz channels sampleFormat dataBytes = .ok longer := by
  unfold wavHeader at h ⊢
  dsimp only at h ⊢
  split_ifs at h with _ hbits halign hrate
  rw [if_neg (by omega), if_neg hbits, if_neg halign, if_neg hrate]
  exact ⟨_, rfl⟩

end Header

/-- Whether a WAV header can be built for a captured frame. -/
def HeaderFits (captured : CapturedFrame) : Prop :=
  ∀ key specification, ArtifactSpecification.fromCapture captured = some (key, specification) →
    ∃ file, (ArtifactWriterKind.of specification).writeHeader File.create 0 = .ok file

/-- An artifact holds what was kept under its key, after its header. -/
structure Holds (key : String) (w : ArtifactWriter) (kept : List (List UInt8)) : Prop where
  head : ∃ head, w.file.contents = head ++ kept.flatten ∧ head.length = w.kind.headerBytes
  cursor : w.file.cursor = w.file.contents.length
  kind : KeyOf key w.kind
  opens : ∃ file, w.kind.writeHeader File.create 0 = .ok file
  dataBytes : w.dataBytes = kept.flatten.length
  bytes : w.metadata.bytes = w.dataBytes + w.kind.headerBytes
  frames : w.metadata.frames = kept.length
  full : ∀ bytes ∈ kept, bytes ≠ []
  limit : w.dataBytes ≤ maxArtifactBytes

theorem length_le_flatten {kept : List (List UInt8)} (h : ∀ bytes ∈ kept, bytes ≠ []) :
    kept.length ≤ kept.flatten.length := by
  induction kept with
  | nil => exact le_refl _
  | cons bytes rest ih =>
    have hpos := List.length_pos_iff.mpr (h bytes List.mem_cons_self)
    have hrest := ih fun b hb => h b (List.mem_cons_of_mem _ hb)
    rw [List.flatten_cons, List.length_append, List.length_cons]
    omega

theorem Holds.frames_le {key : String} {w : ArtifactWriter} {kept : List (List UInt8)}
    (h : Holds key w kept) : w.metadata.frames ≤ w.dataBytes := by
  rw [h.frames, h.dataBytes]
  exact length_le_flatten h.full

theorem writeHeader_create {kind : ArtifactWriterKind} {file : File}
    (h : kind.writeHeader File.create 0 = .ok file) :
    file.contents.length = kind.headerBytes ∧ file.cursor = file.contents.length := by
  cases kind with
  | audio sampleRateHz channels sampleFormat =>
    unfold ArtifactWriterKind.writeHeader at h
    dsimp only at h
    cases hhead : wavHeader sampleRateHz channels sampleFormat 0 with
    | error e =>
      rw [hhead] at h
      cases h
    | ok head =>
      rw [hhead] at h
      cases h
      rw [File.writeAll_end rfl]
      exact ⟨(wavHeader_ok hhead).1, rfl⟩
  | video =>
    cases h
    exact ⟨rfl, rfl⟩

theorem Holds.new {captured : CapturedFrame} {key id : String}
    {specification : ArtifactSpecification}
    (hfrom : ArtifactSpecification.fromCapture captured = some (key, specification))
    (hopens : ∃ file, (ArtifactWriterKind.of specification).writeHeader File.create 0 = .ok file) :
    ∃ w, ArtifactWriter.new id captured specification = .ok w ∧ w.metadata.id = id ∧
      w.dataBytes = 0 ∧ w.metadata.frames = 0 ∧ Holds key w [] := by
  obtain ⟨file, hfile⟩ := hopens
  obtain ⟨hlength, hcursor⟩ := writeHeader_create hfile
  unfold ArtifactWriter.new
  dsimp only
  rw [hfile]
  refine ⟨_, rfl, rfl, rfl, rfl, ?_⟩
  constructor
  · exact ⟨file.contents, (List.append_nil _).symm, hlength⟩
  · exact hcursor
  · exact keyOf_fromCapture hfrom
  · exact ⟨file, hfile⟩
  · rfl
  · exact (Nat.zero_add _).symm
  · rfl
  · nofun
  · exact Nat.zero_le _

/-- A frame of the artifact's kind is written whole, or the artifact is marked. -/
theorem Holds.writeFrame {key : String} {w : ArtifactWriter} {kept : List (List UInt8)}
    {frame : FramePayload} {remaining : ℕ} (h : Holds key w kept) (hfits : Fits w.kind frame) :
    ∃ t, (w.writeFrame frame remaining = (t, .ok (payload frame).length) ∧
          (payload frame).length ≤ remaining ∧
          w.dataBytes + (payload frame).length ≤ maxArtifactBytes ∧
          Holds key t (kept ++ [payload frame]) ∨
        w.writeFrame frame remaining = (t, .ok 0) ∧
          (remaining < (payload frame).length ∨
            maxArtifactBytes < w.dataBytes + (payload frame).length) ∧
          Holds key t kept ∧ t.metadata.truncated = true) ∧
      t.metadata.id = w.metadata.id := by
  have hlimit := h.limit
  have hframes := h.frames_le
  have hbudget : maxArtifactBytes < 2 ^ 63 := by decide
  obtain ⟨durationNs, hencode⟩ := encode_ok hfits
  obtain ⟨head, hcontents, hhead⟩ := h.head
  unfold ArtifactWriter.writeFrame
  rw [hencode]
  dsimp only
  split_ifs with hover
  · refine ⟨_, .inr ⟨rfl, by omega, ?_, rfl⟩, rfl⟩
    exact ⟨h.head, h.cursor, h.kind, h.opens, h.dataBytes, h.bytes, h.frames, h.full, h.limit⟩
  · have hroom : w.dataBytes + (payload frame).length ≤ maxArtifactBytes := by omega
    have hsum := saturatingAdd_small (a := w.dataBytes) (b := (payload frame).length) (by omega)
    have hcount := saturatingAdd_small (a := w.metadata.frames) (b := 1) (by omega)
    refine ⟨_, .inl ⟨rfl, by omega, hroom, ?_⟩, rfl⟩
    constructor
    · refine ⟨head, ?_, hhead⟩
      rw [File.writeAll_end h.cursor, List.flatten_append, List.flatten_singleton,
        ← List.append_assoc, ← hcontents]
    · rw [File.writeAll_end h.cursor]
    · exact h.kind
    · exact h.opens
    · dsimp only
      rw [hsum, List.flatten_append, List.flatten_singleton, List.length_append, h.dataBytes]
    · rfl
    · dsimp only
      rw [hcount, List.length_append, h.frames, List.length_singleton]
    · intro bytes hbytes
      rcases List.mem_append.mp hbytes with hold | hnew
      · exact h.full bytes hold
      · rw [List.mem_singleton.mp hnew]
        exact payload_ne_nil hfits
    · dsimp only
      omega

theorem replaceWriter_split {before after : List (String × ArtifactWriter)} {key : String}
    {old : ArtifactWriter} (h : ∀ e ∈ before, e.1 ≠ key) (w : ArtifactWriter) :
    replaceWriter key w (before ++ (key, old) :: after) = before ++ (key, w) :: after := by
  induction before with
  | nil => simp [replaceWriter]
  | cons e rest ih =>
    rw [List.cons_append, replaceWriter, if_neg (h e List.mem_cons_self),
      ih fun e he => h e (List.mem_cons_of_mem _ he), List.cons_append]

theorem refresh_split {before after : List MediaArtifact} {old metadata : MediaArtifact}
    (h : ∀ item ∈ before, item.id ≠ metadata.id) (hid : old.id = metadata.id) :
    refresh metadata (before ++ old :: after) = before ++ metadata :: after := by
  induction before with
  | nil => simp [refresh, hid]
  | cons item rest ih =>
    rw [List.cons_append, refresh, if_neg (h item List.mem_cons_self),
      ih fun item hitem => h item (List.mem_cons_of_mem _ hitem), List.cons_append]

/-- The session against the ledger. -/
structure Recorded (s : SessionWriter) (l : Ledger) : Prop where
  artifacts : s.status.artifacts = s.writers.map (·.2.metadata)
  keys : (s.writers.map (·.1)).Nodup
  ids : (s.writers.map (·.2.metadata.id)).Nodup
  numbered : ∀ e ∈ s.writers, ∃ n ≤ s.nextArtifact, e.2.metadata.id = artifactId n
  holds : ∀ e ∈ s.writers, Holds e.1 e.2 (l.under e.1)
  known : ∀ kept ∈ l, kept.1 ∈ s.writers.map (·.1)
  bytes : s.status.bytes = (s.writers.map (·.2.dataBytes)).sum
  frames : s.status.frames = (s.writers.map (·.2.metadata.frames)).sum
  total : s.status.bytes = l.total
  limit : s.status.bytes ≤ maxSessionBytes

theorem Recorded.new (runId : String) : Recorded (.new runId) [] := by
  constructor <;> simp [SessionWriter.new, Ledger.total]

variable {s : SessionWriter} {l : Ledger}

theorem Recorded.frames_le (h : Recorded s l) : s.status.frames ≤ s.status.bytes := by
  rw [h.frames, h.bytes]
  apply List.sum_le_sum
  intro e he
  exact (h.holds e he).frames_le

theorem Recorded.under_eq_nil (h : Recorded s l) {key : String}
    (hkey : key ∉ s.writers.map (·.1)) : l.under key = [] := by
  unfold Ledger.under
  rw [List.map_eq_nil_iff, List.filter_eq_nil_iff]
  intro kept hkept hsame
  exact hkey (of_decide_eq_true hsame ▸ h.known kept hkept)

/-- A key that is new gets an artifact with nothing in it. -/
theorem Recorded.openArtifact {captured : CapturedFrame} {key : String}
    {specification : ArtifactSpecification} (h : Recorded s l)
    (hfrom : ArtifactSpecification.fromCapture captured = some (key, specification))
    (hheader : HeaderFits captured) :
    ∃ t w, s.openArtifact key captured specification = .ok t ∧ Recorded t l ∧
      t.writers.lookup key = some w ∧ t.status.bytes = s.status.bytes ∧
      t.status.truncated = s.status.truncated := by
  unfold SessionWriter.openArtifact
  cases hlookup : s.writers.lookup key with
  | some w => exact ⟨s, w, if_pos rfl, h, hlookup, rfl, rfl⟩
  | none =>
    obtain ⟨w, hnew, hid, hempty, hzero, hholds⟩ :=
      @Holds.new captured key (artifactId (s.nextArtifact + 1)) specification hfrom
        (hheader key specification hfrom)
    have hkey : key ∉ s.writers.map (·.1) := by
      intro hmem
      obtain ⟨e, he, rfl⟩ := List.mem_map.mp hmem
      exact absurd (List.lookup_eq_none_iff.mp hlookup e he) (by simp)
    have hfresh : w.metadata.id ∉ s.writers.map (·.2.metadata.id) := by
      intro hmem
      obtain ⟨e, he, hsame⟩ := List.mem_map.mp hmem
      obtain ⟨n, hn, hnumber⟩ := h.numbered e he
      have heq := artifactId_injective (hnumber.symm.trans (hsame.trans hid))
      omega
    dsimp only
    rw [if_neg (by simp), hnew]
    refine ⟨_, w, rfl, ?_, ?_, rfl, rfl⟩
    · constructor
      · simp only [List.map_append, List.map_cons, List.map_nil, h.artifacts]
      · rw [List.map_append, List.map_cons, List.map_nil, ← List.concat_eq_append]
        exact List.Nodup.concat hkey h.keys
      · rw [List.map_append, List.map_cons, List.map_nil, ← List.concat_eq_append]
        exact List.Nodup.concat hfresh h.ids
      · intro e he
        rcases List.mem_append.mp he with hold | hlast
        · obtain ⟨n, hn, hnumber⟩ := h.numbered e hold
          exact ⟨n, Nat.le_succ_of_le hn, hnumber⟩
        · rw [List.mem_singleton.mp hlast]
          exact ⟨s.nextArtifact + 1, le_refl _, hid⟩
      · intro e he
        rcases List.mem_append.mp he with hold | hlast
        · exact h.holds e hold
        · rw [List.mem_singleton.mp hlast, h.under_eq_nil hkey]
          exact hholds
      · intro kept hkept
        rw [List.map_append]
        exact List.mem_append_left _ (h.known kept hkept)
      · simpa [hempty] using h.bytes
      · simpa [hzero] using h.frames
      · exact h.total
      · exact h.limit
    · rw [List.lookup_append, hlookup, Option.none_or]
      simp

/-- The artifact of one key changes, to what the ledger says of it. -/
theorem Recorded.replace {t : SessionWriter} {before after : List (String × ArtifactWriter)}
    {key : String} {old w : ArtifactWriter} {l' : Ledger} (h : Recorded s l)
    (hsplit : s.writers = before ++ (key, old) :: after)
    (hwriters : t.writers = before ++ (key, w) :: after) (hid : w.metadata.id = old.metadata.id)
    (hartifacts : t.status.artifacts = refresh w.metadata s.status.artifacts)
    (hnext : t.nextArtifact = s.nextArtifact) (hholds : Holds key w (l'.under key))
    (hsame : ∀ other, other ≠ key → l'.under other = l.under other)
    (hknown : ∀ kept ∈ l', kept ∈ l ∨ kept.1 = key)
    (hbytes : t.status.bytes + old.dataBytes = s.status.bytes + w.dataBytes)
    (hframes : t.status.frames + old.metadata.frames = s.status.frames + w.metadata.frames)
    (htotal : t.status.bytes = l'.total) (hlimit : t.status.bytes ≤ maxSessionBytes) :
    Recorded t l' := by
  have hartifactsBefore := h.artifacts
  have hkeys := h.keys
  have hids := h.ids
  have hbytesBefore := h.bytes
  have hframesBefore := h.frames
  rw [hsplit] at hartifactsBefore hkeys hids hbytesBefore hframesBefore
  simp only [List.map_append, List.map_cons] at hartifactsBefore hkeys hids
  simp only [List.map_append, List.map_cons, List.sum_append, List.sum_cons] at hbytesBefore
  simp only [List.map_append, List.map_cons, List.sum_append, List.sum_cons] at hframesBefore
  have hmem {e : String × ArtifactWriter} (he : e ∈ before ∨ e ∈ after) : e ∈ s.writers := by
    rw [hsplit]
    rcases he with he | he <;> simp [he]
  have hother {e : String × ArtifactWriter} (he : e ∈ before ∨ e ∈ after) : e.1 ≠ key := by
    have hnot := (List.nodup_middle.mp hkeys).notMem
    rintro rfl
    apply hnot
    rcases he with he | he
    · exact List.mem_append_left _ (List.mem_map_of_mem he)
    · exact List.mem_append_right _ (List.mem_map_of_mem he)
  constructor
  · rw [hartifacts, hartifactsBefore, hwriters]
    simp only [List.map_append, List.map_cons]
    apply refresh_split _ hid.symm
    intro item hitem hsameId
    obtain ⟨e, he, rfl⟩ := List.mem_map.mp hitem
    have hnot := (List.nodup_middle.mp hids).notMem
    apply hnot
    rw [← hid, ← hsameId]
    exact List.mem_append_left _ (List.mem_map_of_mem he)
  · rw [hwriters]
    simpa only [List.map_append, List.map_cons] using hkeys
  · rw [hwriters]
    simpa only [List.map_append, List.map_cons, hid] using hids
  · intro e he
    rw [hwriters] at he
    rw [hnext]
    rcases List.mem_append.mp he with hold | htail
    · exact h.numbered e (hmem (.inl hold))
    · rcases List.mem_cons.mp htail with rfl | hold
      · rw [hid]
        exact h.numbered (key, old) (by rw [hsplit]; simp)
      · exact h.numbered e (hmem (.inr hold))
  · intro e he
    rw [hwriters] at he
    rcases List.mem_append.mp he with hold | htail
    · rw [hsame e.1 (hother (.inl hold))]
      exact h.holds e (hmem (.inl hold))
    · rcases List.mem_cons.mp htail with rfl | hold
      · exact hholds
      · rw [hsame e.1 (hother (.inr hold))]
        exact h.holds e (hmem (.inr hold))
  · intro kept hkept
    have hall : t.writers.map (·.1) = s.writers.map (·.1) := by
      rw [hwriters, hsplit]
      simp only [List.map_append, List.map_cons]
    rw [hall]
    rcases hknown kept hkept with hold | hnew
    · exact h.known kept hold
    · rw [hnew, hsplit]
      simp
  · rw [hwriters]
    simp only [List.map_append, List.map_cons, List.sum_append, List.sum_cons]
    omega
  · rw [hwriters]
    simp only [List.map_append, List.map_cons, List.sum_append, List.sum_cons]
    omega
  · exact htotal
  · exact hlimit

theorem Recorded.truncate (h : Recorded s l) : Recorded s.truncate l :=
  ⟨h.artifacts, h.keys, h.ids, h.numbered, h.holds, h.known, h.bytes, h.frames, h.total, h.limit⟩

/-- A frame the ledger affords is written, one it does not marks the session. -/
theorem Recorded.writeArtifact {key : String} {frame : FramePayload} {w : ArtifactWriter}
    (h : Recorded s l) (hlookup : s.writers.lookup key = some w) (hfits : Fits w.kind frame) :
    Recorded (s.writeArtifact key frame)
      (if l.Affords key (payload frame) then l ++ [(key, payload frame)] else l) ∧
    (¬ l.Affords key (payload frame) → (s.writeArtifact key frame).status.truncated = true) ∧
    (s.status.truncated = true → (s.writeArtifact key frame).status.truncated = true) := by
  obtain ⟨before, after, hsplit, hne⟩ := List.lookup_eq_some_iff.mp hlookup
  have hbefore : ∀ e ∈ before, e.1 ≠ key := fun e he hsame => by
    have hneq := hne e he
    rw [hsame] at hneq
    simp at hneq
  have hholds : Holds key w (l.under key) := h.holds (key, w) (by rw [hsplit]; simp)
  have hlimit := h.limit
  have hframes := h.frames_le
  have htotal := h.total
  have hdata := hholds.dataBytes
  have hsession : maxSessionBytes < 2 ^ 63 := by decide
  have hpositive := List.length_pos_iff.mpr (payload_ne_nil hfits)
  obtain ⟨t, hwritten, hid⟩ :=
    @Holds.writeFrame key w _ frame (maxSessionBytes - s.status.bytes) hholds hfits
  unfold SessionWriter.writeArtifact
  rw [hlookup]
  dsimp only
  rcases hwritten with ⟨hwrite, hremaining, hroom, hkept⟩ | ⟨hwrite, hover, hkept, hmarked⟩
  · have hafford : l.Affords key (payload frame) := by
      unfold Ledger.Affords
      omega
    have hbytes := saturatingAdd_small (a := s.status.bytes) (b := (payload frame).length) (by omega)
    have hcount := saturatingAdd_small (a := s.status.frames) (b := 1) (by omega)
    have hgrown := hkept.dataBytes
    rw [List.flatten_append, List.flatten_singleton, List.length_append] at hgrown
    have hcounted := hkept.frames
    rw [List.length_append, List.length_singleton] at hcounted
    have hcountedBefore := hholds.frames
    have hsome : (payload frame).length ≠ 0 := by omega
    rw [hwrite, if_pos hafford]
    simp only [if_pos hsome, hbytes, hcount, hsplit, replaceWriter_split hbefore]
    have hrecorded : Recorded { s with
        writers := before ++ (key, t) :: after
        status := { s.status with
          bytes := s.status.bytes + (payload frame).length
          frames := s.status.frames + 1
          artifacts := refresh t.metadata s.status.artifacts } } (l ++ [(key, payload frame)]) := by
      refine h.replace hsplit ?_ hid ?_ ?_ ?_ ?_ ?_ ?_ ?_ ?_ ?_
      · rfl
      · rfl
      · rfl
      · rw [Ledger.under_append_self]
        exact hkept
      · intro other hother
        exact l.under_append_of_ne hother _
      · intro kept hmem
        rcases List.mem_append.mp hmem with hold | hlast
        · exact .inl hold
        · rw [List.mem_singleton.mp hlast]
          exact .inr rfl
      · dsimp only
        omega
      · dsimp only
        omega
      · rw [Ledger.total_append]
        dsimp only
        omega
      · dsimp only
        omega
    refine ⟨?_, fun hnot => absurd hafford hnot, fun htruncated => ?_⟩
    · split_ifs
      · exact hrecorded.truncate
      · exact hrecorded
    · split_ifs
      · rfl
      · exact htruncated
  · have hnot : ¬ l.Affords key (payload frame) := by
      unfold Ledger.Affords
      omega
    have hbytes := saturatingAdd_small (a := s.status.bytes) (b := 0) (by omega)
    rw [hwrite, if_neg hnot]
    simp only [hmarked, true_or, if_true, ne_eq, not_true_eq_false, if_false, hbytes, hsplit,
      replaceWriter_split hbefore, Nat.add_zero]
    refine ⟨?_, fun _ => rfl, fun _ => rfl⟩
    apply Recorded.truncate
    have hgrown := hkept.dataBytes
    have hcounted := hkept.frames
    have hcountedBefore := hholds.frames
    refine h.replace hsplit ?_ hid ?_ ?_ hkept ?_ ?_ ?_ ?_ htotal hlimit
    · rfl
    · rfl
    · rfl
    · exact fun _ _ => rfl
    · exact fun kept hmem => .inl hmem
    · dsimp only
      omega
    · dsimp only
      omega

theorem Recorded.capture {captured : CapturedFrame} (h : Recorded s l)
    (hheader : HeaderFits captured) :
    Recorded (s.capture captured) (l.offer captured) ∧
    (s.status.truncated = true → (s.capture captured).status.truncated = true) ∧
    ∀ key specification,
      ArtifactSpecification.fromCapture captured = some (key, specification) →
      ¬ l.Affords key (payload captured.frame) →
      (s.capture captured).status.truncated = true := by
  unfold SessionWriter.capture Ledger.offer
  cases hfrom : ArtifactSpecification.fromCapture captured with
  | none =>
    dsimp only
    split_ifs
    · exact ⟨h.truncate, fun _ => rfl, nofun⟩
    · exact ⟨h, id, nofun⟩
  | some found =>
    obtain ⟨key, specification⟩ := found
    have hfits := fits_fromCapture hfrom (keyOf_fromCapture hfrom)
    dsimp only
    split_ifs with hfull hafford hafford
    · -- the session is full, and no frame is empty
      have hpositive := List.length_pos_iff.mpr (payload_ne_nil hfits)
      have hlow := hafford.1
      have htotal := h.total
      omega
    · exact ⟨h.truncate, fun _ => rfl, fun _ _ _ _ => rfl⟩
    all_goals
      obtain ⟨t, w, hopen, hrecorded, hlookup, hbytes, htruncated⟩ :=
        h.openArtifact hfrom hheader
      obtain ⟨before, after, hsplit, -⟩ := List.lookup_eq_some_iff.mp hlookup
      have hkind := (hrecorded.holds (key, w) (by rw [hsplit]; simp)).kind
      obtain ⟨hwritten, hrejected, hkept⟩ :=
        hrecorded.writeArtifact hlookup (fits_fromCapture hfrom hkind)
      rw [hopen]
    · rw [if_pos hafford] at hwritten
      refine ⟨hwritten, fun hold => hkept (htruncated.trans hold), ?_⟩
      intro key' specification' hsame hnot
      cases hsame
      exact absurd hafford hnot
    · rw [if_neg hafford] at hwritten
      exact ⟨hwritten, fun hold => hkept (htruncated.trans hold), fun _ _ _ _ => hrejected hafford⟩

end Muxiva.Studio
