import Muxiva.Studio.Accounting

/-! Whole sessions: every frame that is captured is recorded or marks the session, and the end of the
session completes the headers. -/
set_option linter.all false
namespace Muxiva.Studio

open Muxiva.Audio (PcmSampleFormat)
open Muxiva.Ffi (FramePayload)
open Bytes (File)

/-- The file without its header. -/
def ArtifactWriter.data (w : ArtifactWriter) : List UInt8 := w.file.contents.drop w.kind.headerBytes

theorem Holds.data_eq {key : String} {w : ArtifactWriter} {kept : List (List UInt8)}
    (h : Holds key w kept) : w.data = kept.flatten := by
  obtain ⟨head, hcontents, hlength⟩ := h.head
  unfold ArtifactWriter.data
  rw [hcontents, ← hlength, List.drop_left]

theorem captureAll_append (runId : String) (frames : List CapturedFrame) (captured : CapturedFrame) :
    SessionWriter.captureAll runId (frames ++ [captured]) =
      (SessionWriter.captureAll runId frames).capture captured := by
  unfold SessionWriter.captureAll
  rw [List.foldl_append]
  rfl

theorem ofFrames_append (frames : List CapturedFrame) (captured : CapturedFrame) :
    Ledger.ofFrames (frames ++ [captured]) = (Ledger.ofFrames frames).offer captured := by
  unfold Ledger.ofFrames
  rw [List.foldl_append]
  rfl

theorem recorded_captureAll (runId : String) {frames : List CapturedFrame}
    (h : ∀ captured ∈ frames, HeaderFits captured) :
    Recorded (SessionWriter.captureAll runId frames) (Ledger.ofFrames frames) := by
  induction frames using List.reverseRecOn with
  | nil => exact Recorded.new runId
  | append_singleton frames captured ih =>
    rw [captureAll_append, ofFrames_append]
    have hrecorded := ih fun c hc => h c (List.mem_append_left _ hc)
    exact (hrecorded.capture (h captured (by simp))).1

/-- The mark stays. -/
theorem truncated_captureAll (runId : String) {frames more : List CapturedFrame}
    (h : ∀ captured ∈ frames ++ more, HeaderFits captured)
    (htruncated : (SessionWriter.captureAll runId frames).status.truncated = true) :
    (SessionWriter.captureAll runId (frames ++ more)).status.truncated = true := by
  induction more using List.reverseRecOn with
  | nil => rwa [List.append_nil]
  | append_singleton more captured ih =>
    rw [← List.append_assoc] at h ⊢
    have hbefore : ∀ c ∈ frames ++ more, HeaderFits c := fun c hc => h c (List.mem_append_left _ hc)
    rw [captureAll_append]
    have hrecorded := recorded_captureAll runId hbefore
    exact (hrecorded.capture (h captured (by simp))).2.1 (ih hbefore)

/-- A frame is recorded whole, or it exceeds a budget and the session is marked for good. -/
theorem kept_or_truncated (runId : String) {before after : List CapturedFrame}
    {captured : CapturedFrame} {key : String} {specification : ArtifactSpecification}
    (h : ∀ c ∈ before ++ captured :: after, HeaderFits c)
    (hfrom : ArtifactSpecification.fromCapture captured = some (key, specification)) :
    Ledger.ofFrames (before ++ [captured]) =
        Ledger.ofFrames before ++ [(key, payload captured.frame)] ∨
      Ledger.ofFrames (before ++ [captured]) = Ledger.ofFrames before ∧
        (maxSessionBytes < (SessionWriter.captureAll runId before).status.bytes +
            (payload captured.frame).length ∨
          maxArtifactBytes < ((Ledger.ofFrames before).under key).flatten.length +
            (payload captured.frame).length) ∧
        (SessionWriter.captureAll runId (before ++ captured :: after)).status.truncated = true := by
  have hbefore : ∀ c ∈ before, HeaderFits c := fun c hc => h c (List.mem_append_left _ hc)
  have hrecorded := recorded_captureAll runId hbefore
  obtain ⟨-, -, hmarks⟩ := hrecorded.capture (h captured (by simp))
  have hoffer : Ledger.ofFrames (before ++ [captured]) =
      if (Ledger.ofFrames before).Affords key (payload captured.frame) then
        Ledger.ofFrames before ++ [(key, payload captured.frame)]
      else Ledger.ofFrames before := by
    rw [ofFrames_append]
    unfold Ledger.offer
    rw [hfrom]
  by_cases hafford : (Ledger.ofFrames before).Affords key (payload captured.frame)
  · rw [if_pos hafford] at hoffer
    exact .inl hoffer
  · rw [if_neg hafford] at hoffer
    refine .inr ⟨hoffer, ?_, ?_⟩
    · have htotal := hrecorded.total
      unfold Ledger.Affords at hafford
      omega
    · have hsplit : before ++ captured :: after = (before ++ [captured]) ++ after := by simp
      rw [hsplit] at h ⊢
      apply truncated_captureAll runId h
      rw [captureAll_append]
      exact hmarks key specification hfrom hafford

/-- The header is written again over itself; what follows it stays. -/
theorem Holds.finish {key : String} {w : ArtifactWriter} {kept : List (List UInt8)}
    (h : Holds key w kept) :
    w.finish.1.metadata.id = w.metadata.id ∧ w.finish.1.kind = w.kind ∧
      w.finish.1.data = kept.flatten ∧ w.finish.1.dataBytes = w.dataBytes ∧
      w.finish.1.metadata.bytes = w.metadata.bytes ∧
      w.finish.1.metadata.frames = w.metadata.frames ∧
      ∀ sampleRateHz channels sampleFormat, w.kind = .audio sampleRateHz channels sampleFormat →
        Bytes.ofLe (Bytes.slice w.finish.1.file.contents 40 4) = kept.flatten.length := by
  have hlimit := h.limit
  have hdata := h.dataBytes
  have hbudget : maxArtifactBytes < 2 ^ 31 := by decide
  obtain ⟨head, hcontents, hlength⟩ := h.head
  unfold ArtifactWriter.finish
  cases hkind : w.kind with
  | video =>
    dsimp only
    refine ⟨rfl, rfl, ?_, rfl, rfl, rfl, nofun⟩
    have hsame := h.data_eq
    unfold ArtifactWriter.data at hsame ⊢
    rw [hkind] at hsame
    exact hsame
  | audio sampleRateHz channels sampleFormat =>
    obtain ⟨file, hopens⟩ := h.opens
    rw [hkind] at hopens hlength
    unfold ArtifactWriterKind.writeHeader at hopens ⊢
    dsimp only at hopens ⊢
    cases hfirst : wavHeader sampleRateHz channels sampleFormat 0 with
    | error e =>
      rw [hfirst] at hopens
      cases hopens
    | ok first =>
      obtain ⟨last, hlast⟩ := @wavHeader_longer _ _ w.dataBytes _ _ hfirst (by omega)
      obtain ⟨hsize, hsizes⟩ := wavHeader_ok hlast
      have hsame : last.length = head.length := hsize.trans hlength.symm
      have hwritten := File.writeAll_start hcontents hsame
      rw [hlast]
      dsimp only [Except.map]
      refine ⟨rfl, rfl, ?_, rfl, rfl, rfl, fun _ _ _ _ => ?_⟩
      · unfold ArtifactWriter.data
        dsimp only
        rw [hwritten]
        exact List.drop_left' hsize
      · unfold Bytes.slice
        rw [hwritten, List.drop_append_of_le_length (by omega), hsizes]
        rw [List.take_left' (Bytes.length_le 4 w.dataBytes), Bytes.ofLe_le (by omega), hdata]

/-- An artifact once its writer has finished. -/
def finished (e : String × ArtifactWriter) : String × ArtifactWriter := (e.1, e.2.finish.1)

theorem finishArtifact_fields (t : SessionWriter) (key : String) (w : ArtifactWriter) :
    (t.finishArtifact key w).writers = replaceWriter key w.finish.1 t.writers ∧
      (t.finishArtifact key w).status.artifacts =
        refresh w.finish.1.metadata t.status.artifacts ∧
      (t.finishArtifact key w).status.bytes = t.status.bytes ∧
      (t.finishArtifact key w).status.frames = t.status.frames := by
  unfold SessionWriter.finishArtifact
  obtain ⟨writer, result⟩ := w.finish
  cases result <;> exact ⟨rfl, rfl, rfl, rfl⟩

/-- The loop of `finish`, from any of its turns. -/
theorem Recorded.finish_from {s : SessionWriter} {l : Ledger} (h : Recorded s l)
    {done rest : List (String × ArtifactWriter)} {t : SessionWriter}
    (hsplit : s.writers = done ++ rest) (hwriters : t.writers = done.map finished ++ rest)
    (hartifacts : t.status.artifacts = t.writers.map (·.2.metadata))
    (hbytes : t.status.bytes = s.status.bytes) (hframes : t.status.frames = s.status.frames) :
    let u := rest.foldl (fun s (key, writer) => SessionWriter.finishArtifact s key writer) t
    u.writers = s.writers.map finished ∧ u.status.artifacts = u.writers.map (·.2.metadata) ∧
      u.status.bytes = s.status.bytes ∧ u.status.frames = s.status.frames := by
  induction rest generalizing done t with
  | nil =>
    rw [List.append_nil] at hsplit hwriters
    exact ⟨by rw [hsplit]; exact hwriters, hartifacts, hbytes, hframes⟩
  | cons e rest ih =>
    obtain ⟨key, w⟩ := e
    have hkeys := h.keys
    have hids := h.ids
    rw [hsplit] at hkeys hids
    simp only [List.map_append, List.map_cons] at hkeys hids
    have hdone {d : String × ArtifactWriter} (hd : d ∈ done) :
        (finished d).2.metadata.id = d.2.metadata.id :=
      (h.holds d (by rw [hsplit]; exact List.mem_append_left _ hd)).finish.1
    have hself : w.finish.1.metadata.id = w.metadata.id :=
      (h.holds (key, w) (by rw [hsplit]; simp)).finish.1
    have hreplaced : replaceWriter key w.finish.1 t.writers =
        done.map finished ++ (key, w.finish.1) :: rest := by
      rw [hwriters]
      apply replaceWriter_split
      intro e he hsame
      obtain ⟨d, hd, rfl⟩ := List.mem_map.mp he
      apply (List.nodup_middle.mp hkeys).notMem
      rw [← hsame]
      exact List.mem_append_left _ (List.mem_map.mpr ⟨d, hd, rfl⟩)
    have hrefreshed : refresh w.finish.1.metadata t.status.artifacts =
        (done.map finished ++ (key, w.finish.1) :: rest).map (·.2.metadata) := by
      rw [hartifacts, hwriters]
      simp only [List.map_append, List.map_cons]
      apply refresh_split _ hself.symm
      intro item hitem hsame
      obtain ⟨e, he, rfl⟩ := List.mem_map.mp hitem
      obtain ⟨d, hd, rfl⟩ := List.mem_map.mp he
      apply (List.nodup_middle.mp hids).notMem
      rw [← hself, ← hsame, hdone hd]
      exact List.mem_append_left _ (List.mem_map.mpr ⟨d, hd, rfl⟩)
    obtain ⟨hw, ha, hb, hf⟩ := finishArtifact_fields t key w
    have hnext : done.map finished ++ (key, w.finish.1) :: rest =
        (done ++ [(key, w)]).map finished ++ rest := by
      simp [finished]
    rw [List.foldl_cons]
    refine @ih (done ++ [(key, w)]) _ ?_ ?_ ?_ ?_ ?_
    · rw [hsplit, List.append_assoc]
      rfl
    · exact hw.trans (hreplaced.trans hnext)
    · rw [ha, hrefreshed, hw, hreplaced]
    · exact hb.trans hbytes
    · exact hf.trans hframes

theorem Recorded.finish {s : SessionWriter} {l : Ledger} (h : Recorded s l) :
    s.finish.writers = s.writers.map finished ∧
      s.finish.status.artifacts = s.finish.writers.map (·.2.metadata) ∧
      s.finish.status.bytes = s.status.bytes ∧ s.finish.status.frames = s.status.frames := by
  unfold SessionWriter.finish
  exact h.finish_from (List.nil_append _).symm rfl h.artifacts rfl rfl

/-- The status adds up what the artifacts hold, within both budgets. An artifact holds the frames the
ledger has of its key, in order and whole; a frame the ledger does not have would have exceeded a
budget, and the session is marked. At the end each WAV header names the length of its data. -/
theorem media_dump_accounting (runId : String) (frames : List CapturedFrame)
    (hheader : ∀ captured ∈ frames, HeaderFits captured) :
    let s := SessionWriter.captureAll runId frames
    let l := Ledger.ofFrames frames
    s.status.artifacts = s.writers.map (·.2.metadata) ∧
    (s.writers.map (·.1)).Nodup ∧
    s.status.bytes = (s.writers.map (·.2.data.length)).sum ∧
    s.status.bytes ≤ maxSessionBytes ∧
    s.status.frames = (s.status.artifacts.map (·.frames)).sum ∧
    (∀ e ∈ s.writers, e.2.data = (l.under e.1).flatten ∧ e.2.data.length ≤ maxArtifactBytes ∧
      e.2.metadata.bytes = e.2.data.length + e.2.kind.headerBytes ∧
      e.2.metadata.frames = (l.under e.1).length) ∧
    (∀ kept ∈ l, kept.1 ∈ s.writers.map (·.1)) ∧
    (∀ before captured after key specification, frames = before ++ captured :: after →
      ArtifactSpecification.fromCapture captured = some (key, specification) →
      Ledger.ofFrames (before ++ [captured]) =
          Ledger.ofFrames before ++ [(key, payload captured.frame)] ∨
        Ledger.ofFrames (before ++ [captured]) = Ledger.ofFrames before ∧
          (maxSessionBytes < (SessionWriter.captureAll runId before).status.bytes +
              (payload captured.frame).length ∨
            maxArtifactBytes < ((Ledger.ofFrames before).under key).flatten.length +
              (payload captured.frame).length) ∧
          s.status.truncated = true) ∧
    s.finish.status.artifacts = s.finish.writers.map (·.2.metadata) ∧
    s.finish.status.bytes = (s.finish.writers.map (·.2.data.length)).sum ∧
    s.finish.status.frames = (s.finish.status.artifacts.map (·.frames)).sum ∧
    ∀ e ∈ s.finish.writers, e.2.data = (l.under e.1).flatten ∧
      ∀ sampleRateHz channels sampleFormat, e.2.kind = .audio sampleRateHz channels sampleFormat →
        Bytes.ofLe (Bytes.slice e.2.file.contents 40 4) = e.2.data.length := by
  have h := recorded_captureAll runId hheader
  obtain ⟨hwriters, hartifacts, hbytes, hframes⟩ := h.finish
  have hdata {e : String × ArtifactWriter}
      (he : e ∈ (SessionWriter.captureAll runId frames).writers) :
      e.2.data = ((Ledger.ofFrames frames).under e.1).flatten ∧ e.2.data.length = e.2.dataBytes := by
    have hholds := h.holds e he
    refine ⟨hholds.data_eq, ?_⟩
    rw [hholds.data_eq, hholds.dataBytes]
  have hsum : (SessionWriter.captureAll runId frames).status.bytes =
      ((SessionWriter.captureAll runId frames).writers.map (·.2.data.length)).sum := by
    rw [h.bytes, List.map_congr_left fun e he => (hdata he).2]
  dsimp only
  refine ⟨h.artifacts, h.keys, hsum, h.limit, ?_, ?_, h.known, ?_, hartifacts, ?_, ?_, ?_⟩
  · rw [h.artifacts, h.frames, List.map_map]
    rfl
  · intro e he
    have hholds := h.holds e he
    obtain ⟨hequal, hlength⟩ := hdata he
    exact ⟨hequal, hlength ▸ hholds.limit, by rw [hlength]; exact hholds.bytes, hholds.frames⟩
  · rintro before captured after key specification rfl hfrom
    exact kept_or_truncated runId hheader hfrom
  · rw [hbytes, hsum, hwriters, List.map_map]
    congr 1
    apply List.map_congr_left
    intro e he
    have hfinish := (h.holds e he).finish.2.2.1
    rw [← (hdata he).1] at hfinish
    exact congrArg List.length hfinish.symm
  · rw [hframes, h.frames, hartifacts, hwriters, List.map_map, List.map_map]
    congr 1
    apply List.map_congr_left
    intro e he
    exact (h.holds e he).finish.2.2.2.2.2.1.symm
  · intro last hlast
    rw [hwriters] at hlast
    obtain ⟨e, he, rfl⟩ := List.mem_map.mp hlast
    obtain ⟨-, hkind, hequal, -, -, -, hlength⟩ := (h.holds e he).finish
    refine ⟨hequal, fun sampleRateHz channels sampleFormat haudio => ?_⟩
    have hheld := hlength sampleRateHz channels sampleFormat (hkind.symm.trans haudio)
    have hsame : (finished e).2.data = ((Ledger.ofFrames frames).under e.1).flatten := hequal
    rw [hsame]
    exact hheld

/-- Two samples of two channels. -/
def stereo (layout : Audio.AudioLayout) (buffer : List UInt8) (h : buffer.length = 4) :
    CapturedFrame where
  nodeId := "tts"
  port := "audio_out"
  direction := .output
  frame := .audio {
    buffer
    sampleRateHz := 8000
    channels := 2
    sampleFormat := .u8
    layout
    samplesPerChannel := 2
    durationNs := 250000
    rate := by decide
    channelCount := by decide
    nonempty := by decide
    length := h
    fits := by decide
    duration := by rfl }

theorem media_dump_accounting_stereo :
    let frames := [stereo .planar [1, 3, 2, 4] rfl, stereo .interleaved [5, 6, 7, 8] rfl]
    (SessionWriter.captureAll "run" frames).writers.map (·.2.data) = [[1, 2, 3, 4, 5, 6, 7, 8]] ∧
      (SessionWriter.captureAll "run" frames).status.bytes ≤ maxSessionBytes := by
  have hheader : ∀ captured ∈ [stereo .planar [1, 3, 2, 4] rfl, stereo .interleaved [5, 6, 7, 8] rfl],
      HeaderFits captured := by
    intro captured hmem key specification hfrom
    simp only [List.mem_cons, List.not_mem_nil, or_false] at hmem
    rcases hmem with rfl | rfl <;> cases hfrom <;> exact ⟨_, rfl⟩
  obtain ⟨-, -, -, hlimit, -⟩ := media_dump_accounting "run" _ hheader
  exact ⟨by decide +kernel, hlimit⟩

end Muxiva.Studio
