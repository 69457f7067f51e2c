import Muxiva.Ffi.Adopt

/-! The two ways in accept the same views and build the same frames. Their checks of a payload come
to the same conditions once its bytes are readable. -/
set_option linter.all false
namespace Muxiva.Ffi

open Fallible Owning OwnedFrame
open Muxiva.Audio (AudioData AudioLayout PcmSampleFormat)

variable {α M E : Type}

theorem okOr_eq_ok {e : FfiError} {o : Option α} {a : α} : okOr e o = .ok a ↔ o = some a := by
  cases o with
  | none => simp [okOr]
  | some b => simp

theorem length_copyBytes {view : BytesView} {bytes : List UInt8} (h : copyBytes view = .ok bytes) :
    bytes.length = view.len := by
  unfold copyBytes at h
  split_ifs at h with hlong hempty
  · cases h
    rw [hempty]
    rfl
  · cases hdata : view.data with
    | none => simp [hdata] at h
    | some data =>
      simp only [hdata, Except.ok.injEq] at h
      have hreadable := view.readable data (by simp [hdata])
      rw [← h, List.length_take]
      omega

/-- A sample format is one of the six with a width. -/
theorem pcmSampleFormat_eq_ok {code : ℕ} {format : PcmSampleFormat}
    (h : pcmSampleFormat code = .ok format) :
    (1 ≤ code ∧ code ≤ 6) ∧ widths.getD code 0 = format.bytesPerSample ∧
      (widths[code]?).filter (· ≠ 0) = some format.bytesPerSample := by
  unfold pcmSampleFormat at h
  split at h <;> cases h <;> decide

theorem audioLayout_eq_ok {code : ℕ} {layout : AudioLayout} (h : audioLayout code = .ok layout) :
    1 ≤ code ∧ code ≤ 2 := by
  unfold audioLayout at h
  split at h <;> cases h <;> decide

/-- What `from_view` takes of a payload is what the copy takes. -/
theorem validate_eq_ok {view : OwnedNamedFrameView} {bytes : BytesView} {o : ℕ}
    {owner : ForeignPayloadOwner} (hbytes : payloadBytesView view.frame = .ok bytes)
    (hlen : bytes.len ≤ maxCopyBytes) (hreserved : view.reserved = [0, 0]) :
    ForeignPayloadOwner.validate view o = .ok owner ↔
      copyBytes bytes = .ok owner.data ∧ owner.owner = o := by
  have hpinned {data : List UInt8} :
      ForeignPayloadOwner.pinned bytes = .ok data ↔ copyBytes bytes = .ok data := by
    unfold ForeignPayloadOwner.pinned copyBytes
    rw [if_neg (show ¬ maxCopyBytes < bytes.len by omega)]
    split_ifs with hempty
    · simp only [Except.ok.injEq]
    · cases bytes.data <;> simp [okOr]
  unfold ForeignPayloadOwner.validate
  simp only [bind_eq_ok, hbytes, Except.ok.injEq, exists_eq_left', require_eq_ok, hpinned, pure,
    Except.pure]
  constructor
  · rintro ⟨data, hdata, -, -, -, -, rfl⟩
    exact ⟨hdata, rfl⟩
  · rintro ⟨hdata, rfl⟩
    exact ⟨owner.data, hdata, (), hreserved, (), hlen, rfl⟩

variable {frame : FrameView} {payload : FramePayload}

theorem audio_agrees (htype : frame.header.frameType = 1) :
    copyPayload frame >>= rustPayload = .ok payload ↔
      ∃ buffer, copyBytes frame.payload.audio.bytes = .ok buffer ∧
        ownedPayload frame buffer = .ok payload := by
  unfold copyPayload ownedPayload validateAudioPayload copyAudio
  simp only [htype]
  simp only [bind_eq_ok, require_eq_ok, mapErr_eq_ok, pure, Except.pure, Except.ok.injEq, okOr_eq_ok]
  constructor
  · rintro ⟨_, ⟨-, hreserved, -, ⟨hrate, hchannels, hformat, hlayout, hsamples⟩, expected, hexpected, -,
      hlength, buffer, hbuffer, rfl⟩, hrust⟩
    simp only [rustPayload, bind_eq_ok, mapErr_eq_ok, pure, Except.pure, Except.ok.injEq] at hrust
    obtain ⟨format, hpcm, layout, hplanes, data, hdata, rfl⟩ := hrust
    obtain ⟨-, hget, hfilter⟩ := pcmSampleFormat_eq_ok hpcm
    have hactual := length_copyBytes hbuffer
    exact ⟨buffer, hbuffer, (), ⟨(), hreserved, (), ⟨hrate, hchannels, hsamples⟩, _, hfilter, expected,
      hget ▸ hexpected, hlength.trans hactual.symm, hlayout⟩, format, hpcm, layout, hplanes, data, hdata,
      rfl⟩
  · rintro ⟨buffer, hbuffer, -, ⟨-, hreserved, -, ⟨hrate, hchannels, hsamples⟩, width, hwidth, expected,
      hexpected, hlength, hlayout⟩, format, hpcm, layout, hplanes, data, hdata, rfl⟩
    obtain ⟨hformat, hget, hfilter⟩ := pcmSampleFormat_eq_ok hpcm
    have hactual := length_copyBytes hbuffer
    have hsame : width = format.bytesPerSample := Option.some.inj (hwidth.symm.trans hfilter)
    refine ⟨_, ⟨(), hreserved, (), ⟨hrate, hchannels, hformat, hlayout, hsamples⟩, expected, ?_, (),
      hlength.trans hactual, buffer, hbuffer, rfl⟩, ?_⟩
    · rw [hget, ← hsame]
      exact hexpected
    · simp only [rustPayload, bind_eq_ok, mapErr_eq_ok, pure, Except.pure, Except.ok.injEq]
      exact ⟨format, hpcm, layout, hplanes, data, hdata, rfl⟩

theorem video_agrees (htype : frame.header.frameType = 2) :
    copyPayload frame >>= rustPayload = .ok payload ↔
      ∃ buffer, copyBytes frame.payload.video.bytes = .ok buffer ∧
        ownedPayload frame buffer = .ok payload := by
  have htight {buffer : List UInt8} {width height pixelFormat planeCount : ℕ}
      {a b c a' b' c' : String} {data : VideoData}
      (h : tightVideo buffer width height pixelFormat planeCount a b c = .ok data) :
      tightVideo buffer width height pixelFormat planeCount a' b' c' = .ok data := by
    unfold tightVideo at h ⊢
    split_ifs at h ⊢
    · simpa only [bind_eq_ok, okOr_eq_ok, mapErr_eq_ok] using h
    · simpa only [mapErr_eq_ok] using h
  unfold copyPayload ownedPayload validateVideoPayload copyVideo
  simp only [htype]
  simp only [bind_eq_ok, require_eq_ok, mapErr_eq_ok, pure, Except.pure, Except.ok.injEq, okOr_eq_ok]
  constructor
  · rintro ⟨_, ⟨-, hshape, pixels, hpixels, expected, hexpected, -, hlength, buffer, hbuffer, rfl⟩,
      hrust⟩
    simp only [rustPayload, bind_eq_ok, pure, Except.pure, Except.ok.injEq] at hrust
    obtain ⟨data, hdata, rfl⟩ := hrust
    have hactual := length_copyBytes hbuffer
    exact ⟨buffer, hbuffer, (), ⟨(), hshape, pixels, hpixels, expected, hexpected,
      hlength.trans hactual.symm⟩, data, htight hdata, rfl⟩
  · rintro ⟨buffer, hbuffer, -, ⟨-, hshape, pixels, hpixels, expected, hexpected, hlength⟩, data, hdata,
      rfl⟩
    have hactual := length_copyBytes hbuffer
    refine ⟨_, ⟨(), hshape, pixels, hpixels, expected, hexpected, (), hlength.trans hactual, buffer,
      hbuffer, rfl⟩, ?_⟩
    simp only [rustPayload, bind_eq_ok, pure, Except.pure, Except.ok.injEq]
    exact ⟨data, htight hdata, rfl⟩

theorem byte_agrees (htype : frame.header.frameType = 4) :
    copyPayload frame >>= rustPayload = .ok payload ↔
      ∃ buffer, copyBytes frame.payload.bytes.bytes = .ok buffer ∧
        ownedPayload frame buffer = .ok payload := by
  have hmedia (mediaType : String) (buffer : List UInt8) :
      rustPayload (.byte buffer (if mediaType.utf8ByteSize = 0 then none else some mediaType)) =
        .ok payload ↔
      ∃ media, ownedMediaType mediaType = .ok media ∧ .byte ⟨buffer, media⟩ = payload := by
    unfold ownedMediaType
    split_ifs with hempty
    · simp [rustPayload]
    · simp only [rustPayload]
      cases MediaType.new mediaType <;> simp [mapErr, Except.map, pure, Except.pure]
  unfold copyPayload ownedPayload copyByte
  simp only [htype]
  simp only [bind_eq_ok, require_eq_ok, mapErr_eq_ok, pure, Except.pure, Except.ok.injEq]
  constructor
  · rintro ⟨_, ⟨-, hreserved, mediaType, hname, buffer, hbuffer, rfl⟩, hrust⟩
    obtain ⟨media, hnew, rfl⟩ := (hmedia mediaType buffer).mp hrust
    exact ⟨buffer, hbuffer, (), hreserved, mediaType, hname, media, hnew, rfl⟩
  · rintro ⟨buffer, hbuffer, -, hreserved, mediaType, hname, media, hnew, rfl⟩
    exact ⟨_, ⟨(), hreserved, mediaType, hname, buffer, hbuffer, rfl⟩,
      (hmedia mediaType buffer).mpr ⟨media, hnew, rfl⟩⟩

variable [EmptyCollection M] [EmptyCollection E]

theorem ownedId_eq_ok {view : StrView} {message : String} {id : Identifier} :
    ownedId view message = .ok id ↔ ∃ value, copyStr view true = .ok value ∧ Identifier.new value = .ok id := by
  unfold ownedId
  simp only [bind_eq_ok, mapErr_eq_ok]

theorem clockKindOf_eq_ok {code : ℕ} {kind : Audio.ClockKind} (h : clockKindOf code = .ok kind) :
    1 ≤ code ∧ code ≤ 3 := by
  unfold clockKindOf at h
  split at h <;> cases h <;> decide

/-- The frame types of owned emissions are among those of the copy. -/
theorem ownedFrameType_eq {code : ℕ} (h : code = 1 ∨ code = 2 ∨ code = 4) :
    ownedFrameType code = rustFrameType code := by
  rcases h with rfl | rfl | rfl <;> rfl

/-- Copying the fields of a header first and checking them later builds the same header. -/
theorem header_agrees {view : FrameHeaderView} {header : FrameHeader M E}
    (htype : view.frameType = 1 ∨ view.frameType = 2 ∨ view.frameType = 4) :
    ownedRustHeader view = .ok header ↔
      ∃ frameId clockDomainId streamId traceId clock frameType,
        copyStr view.frameId true = .ok frameId ∧ copyStr view.clockDomainId true = .ok clockDomainId ∧
        copyStr view.streamId true = .ok streamId ∧ copyStr view.traceId true = .ok traceId ∧
        clockKindOf view.clockKind = .ok clock ∧ rustFrameType view.frameType = .ok frameType ∧
        rustHeader frameId view.timestampNs clockDomainId clock view.sequenceId streamId traceId
          frameType "invalid frame header" = .ok header := by
  unfold ownedRustHeader rustHeader
  simp only [bind_eq_ok, mapErr_eq_ok, ownedId_eq_ok, ownedFrameType_eq htype]
  constructor
  · rintro ⟨clock, hclock, frameType, hframeType, f, ⟨frameId, hf, hf'⟩, c, ⟨clockDomainId, hc, hc'⟩, s,
      ⟨streamId, hs, hs'⟩, t, ⟨traceId, ht, ht'⟩, hheader⟩
    exact ⟨frameId, clockDomainId, streamId, traceId, clock, frameType, hf, hc, hs, ht, hclock,
      hframeType, f, hf', c, hc', s, hs', t, ht', hheader⟩
  · rintro ⟨frameId, clockDomainId, streamId, traceId, clock, frameType, hf, hc, hs, ht, hclock,
      hframeType, f, hf', c, hc', s, hs', t, ht', hheader⟩
    exact ⟨clock, hclock, frameType, hframeType, f, ⟨frameId, hf, hf'⟩, c, ⟨clockDomainId, hc, hc'⟩, s,
      ⟨streamId, hs, hs'⟩, t, ⟨traceId, ht, ht'⟩, hheader⟩

theorem payload_agrees {bytes : BytesView} (hbytes : payloadBytesView frame = .ok bytes) :
    copyPayload frame >>= rustPayload = .ok payload ↔
      ∃ buffer, copyBytes bytes = .ok buffer ∧ ownedPayload frame buffer = .ok payload := by
  unfold payloadBytesView at hbytes
  split at hbytes
  · rename_i htype
    cases hbytes
    exact audio_agrees htype
  · rename_i htype
    cases hbytes
    exact video_agrees htype
  · rename_i htype
    cases hbytes
    exact byte_agrees htype
  · cases hbytes

/-- The copying way in, as the conditions on its header and on its payload. -/
theorem copied_eq_ok {built : Frame M E}
    (htype : frame.header.frameType = 1 ∨ frame.header.frameType = 2 ∨ frame.header.frameType = 4) :
    copyFrame (some frame) >>= intoRust = .ok built ↔
      (frame.header.abiVersion = abiVersion ∧ frame.header.structSize = headerSize) ∧
        frame.header.reserved = [0, 0, 0, 0] ∧
        ∃ header, ownedRustHeader frame.header = .ok header ∧
          ∃ payload, copyPayload frame >>= rustPayload = .ok payload ∧
            Frame.new header payload = .ok built := by
  unfold copyFrame intoRust
  simp only [okOr_some, ok_bind, bind_eq_ok, require_eq_ok, mapErr_eq_ok, pure, Except.pure,
    Except.ok.injEq, header_agrees htype]
  constructor
  · rintro ⟨_, ⟨-, hversion, -, hreserved, -, -, frameId, hf, clockDomainId, hc, streamId, hs, traceId, ht,
      owned, howned, rfl⟩, clock, hclock, frameType, hframeType, header, hheader, payload, hpayload, hnew⟩
    exact ⟨hversion, hreserved, header, ⟨frameId, clockDomainId, streamId, traceId, clock, frameType, hf,
      hc, hs, ht, hclock, hframeType, hheader⟩, payload, ⟨owned, howned, hpayload⟩, hnew⟩
  · rintro ⟨hversion, hreserved, header, ⟨frameId, clockDomainId, streamId, traceId, clock, frameType, hf,
      hc, hs, ht, hclock, hframeType, hheader⟩, payload, ⟨owned, howned, hpayload⟩, hnew⟩
    exact ⟨_, ⟨(), hversion, (), hreserved, (), clockKindOf_eq_ok hclock, frameId, hf, clockDomainId, hc,
      streamId, hs, traceId, ht, owned, howned, rfl⟩, clock, hclock, frameType, hframeType, header,
      hheader, payload, hpayload, hnew⟩

/-- A payload within the limit is adopted if and only if it is copied, and as the same frame. -/
theorem adopted_iff_copied {view : OwnedNamedFrameView} {bytes : BytesView}
    (hpresent : view.payloadOwner ≠ none) (hrelease : view.releasePayload = true)
    (hreserved : view.reserved = [0, 0])
    (hbytes : payloadBytesView view.frame = .ok bytes) (hlen : bytes.len ≤ maxCopyBytes)
    (built : Frame M E) :
    ((ForeignPayloadOwner.fromView view).result >>= fun owner =>
        (adoptOwnedFrame (some view.frame) owner).result) = .ok built ↔
      copyFrame (some view.frame) >>= intoRust = .ok built := by
  obtain ⟨o, howner⟩ := Option.ne_none_iff_exists'.mp hpresent
  have htype : view.frame.header.frameType = 1 ∨ view.frame.header.frameType = 2 ∨
      view.frame.header.frameType = 4 := by
    unfold payloadBytesView at hbytes
    split at hbytes <;> simp_all
  rw [copied_eq_ok htype]
  simp only [payload_agrees hbytes]
  unfold ForeignPayloadOwner.fromView adoptOwnedFrame
  simp only [howner, hrelease, scope_result, okOr_some, ok_bind, bind_eq_ok, require_eq_ok,
    mapErr_eq_ok, validate_eq_ok hbytes hlen hreserved]
  constructor
  · rintro ⟨owner, ⟨hdata, -⟩, -, hversion, -, hreserved, header, hheader, payload, hpayload, hnew⟩
    exact ⟨hversion, hreserved, header, hheader, payload, ⟨owner.data, hdata, hpayload⟩, hnew⟩
  · rintro ⟨hversion, hreserved, header, hheader, payload, ⟨buffer, hdata, hpayload⟩, hnew⟩
    exact ⟨⟨buffer, o⟩, ⟨hdata, rfl⟩, (), hversion, (), hreserved, header, hheader, payload, hpayload, hnew⟩

def sampleOwned : OwnedNamedFrameView where
  outputPort := strView "out"
  frame := ⟨headerView (sampleHeader .byte) 4,
    { emptyPayload with bytes := bytePayload ⟨[7], none⟩ }⟩
  payloadOwner := some 9
  releasePayload := true
  reserved := [0, 0]

/-- One byte, adopted. -/
theorem adopted_iff_copied_byte : ∃ built : Frame (List ℕ) (List ℕ),
    ((ForeignPayloadOwner.fromView sampleOwned).result >>= fun owner =>
        (adoptOwnedFrame (some sampleOwned.frame) owner).result) = .ok built ∧
      built.payload = .byte ⟨[7], none⟩ := by
  obtain ⟨owned, howned, hpayload⟩ := bind_eq_ok.mp (copyByte_byte ⟨[7], none⟩ (by decide))
  obtain ⟨built, hbuilt, hagrees⟩ :=
    @intoRust_owned (List ℕ) (List ℕ) _ _ (sampleHeader .byte) owned _ hpayload rfl trivial
  refine ⟨built, ?_, hagrees.payload⟩
  apply (adopted_iff_copied (by decide) rfl rfl rfl (by decide) built).mpr
  have hcopied := copyFrame_headerView (sampleHeader .byte)
    { emptyPayload with bytes := bytePayload ⟨[7], none⟩ }
  have hcopied := hcopied.trans (congrArg (Except.map _) howned)
  exact bind_eq_ok.mpr ⟨_, hcopied, hbuilt⟩

end Muxiva.Ffi
