import Muxiva.Ffi.Agreement

/-! `append_owned_emissions`: the payloads a callback hands over. Each one is released before the
function returns, or belongs to a frame that was pushed. -/
set_option linter.all false
namespace Muxiva.Ffi

open Owning

variable {M E : Type}

/-- `validate_descriptor_name`, which looks at bytes where an identifier looks at characters. -/
def validateDescriptorName (value : String) : Bool :=
  value.utf8ByteSize ≠ 0 && value.utf8ByteSize ≤ 255 && trim value.toList = value.toList &&
    !(Utf8.bytes value).any Utf8.isAsciiControl

structure PortName where
  value : String
  valid : validateDescriptorName value = true

/-- An emission; `owner` is the allocation its frame keeps until it is dropped. -/
structure Emission (M E : Type) where
  port : PortName
  frame : Frame M E
  owner : ℕ

def foreignError (code message : String) : MuxivaError := ⟨.external, code, message⟩

def toMuxivaError (error : FfiError) : MuxivaError := foreignError error.code error.message

def invalidPort : MuxivaError := foreignError "MUXIVA-FFI-GRAPH-OWNED-OUTPUT" "invalid owned output port"

def ownedPort (view : OwnedNamedFrameView) : Except MuxivaError PortName :=
  match copyStr view.outputPort true with
  | .error _ => .error invalidPort
  | .ok name =>
    if h : validateDescriptorName name = true then .ok ⟨name, h⟩ else .error invalidPort

/-- What the function released before it returned, and the emissions with those it pushed. -/
structure Appended (M E : Type) where
  released : List ℕ
  emissions : List (Emission M E)
  result : Except MuxivaError Unit

variable [EmptyCollection M] [EmptyCollection E]

/-- The loop over the views and their owners. An early return drops the owner at hand and those the
loop has not come to. -/
def pushEmissions : List (OwnedNamedFrameView × ForeignPayloadOwner) → List (Emission M E) →
    Appended M E
  | [], emissions => ⟨[], emissions, .ok ()⟩
  | (view, owner) :: rest, emissions =>
    match ownedPort view with
    | .error e => ⟨owner.owner :: rest.map (·.2.owner), emissions, .error e⟩
    | .ok port =>
      let adopted : Outcome ℕ FfiError (Frame M E) := adoptOwnedFrame (some view.frame) owner
      match adopted.result with
      | .error e =>
        ⟨adopted.released ++ rest.map (·.2.owner), emissions, .error (toMuxivaError e)⟩
      | .ok frame =>
        let pushed := pushEmissions rest (emissions ++ [⟨port, frame, owner.owner⟩])
        { pushed with released := adopted.released ++ pushed.released }

/-- The first entry that `from_view` refused. -/
def firstError (owners : List (Outcome ℕ FfiError ForeignPayloadOwner)) : Option FfiError :=
  owners.findSome? fun owner =>
    match owner.result with
    | .error e => some e
    | .ok _ => none

def adoptable (owners : List (Outcome ℕ FfiError ForeignPayloadOwner)) : List ForeignPayloadOwner :=
  owners.filterMap fun owner =>
    match owner.result with
    | .error _ => none
    | .ok owner => some owner

/-- `pointer` is `none` when it is null or unaligned. -/
def appendOwnedEmissions (pointer : Option (List OwnedNamedFrameView)) (count : ℕ)
    (emissions : List (Emission M E)) : Appended M E :=
  if 4096 < count ∨ count ≠ 0 ∧ pointer = none then
    ⟨[], emissions, .error (foreignError "MUXIVA-FFI-GRAPH-OWNED-OUTPUT"
      "C++ callback returned an invalid owned-emission array")⟩
  else
    let views := if count = 0 then [] else (pointer.getD []).take count
    let owners := views.map ForeignPayloadOwner.fromView
    let refused := owners.flatMap (·.released)
    match firstError owners with
    | some e => ⟨refused ++ (adoptable owners).map (·.owner), emissions, .error (toMuxivaError e)⟩
    | none =>
      let pushed := pushEmissions (views.zip (adoptable owners)) emissions
      { pushed with released := refused ++ pushed.released }

/-- The allocation an entry hands over. -/
def allocation (view : OwnedNamedFrameView) : Option ℕ :=
  if view.releasePayload then view.payloadOwner else none

def allocations (views : List OwnedNamedFrameView) : List ℕ := views.filterMap allocation

/-- The first `pushed` entries belong to the new emissions; of the others each was released once. -/
def Appended.Balanced (views : List OwnedNamedFrameView) (emissions : List (Emission M E))
    (r : Appended M E) : Prop :=
  ∃ pushed new, r.emissions = emissions ++ new ∧
    new.map (·.owner) = allocations (views.take pushed) ∧
    r.released.Perm (allocations (views.drop pushed)) ∧
    (r.result = .ok () → views.length ≤ pushed)

omit [EmptyCollection M] [EmptyCollection E]

theorem validate_owner {view : OwnedNamedFrameView} {o : ℕ} {owner : ForeignPayloadOwner}
    (h : ForeignPayloadOwner.validate view o = .ok owner) : owner.owner = o := by
  unfold ForeignPayloadOwner.validate at h
  simp only [Fallible.bind_eq_ok, pure, Except.pure, Except.ok.injEq] at h
  obtain ⟨bytes, -, data, -, -, -, -, -, rfl⟩ := h
  rfl

/-- `from_view` releases the allocation, or the owner it returns has it. -/
theorem fromView_taken (view : OwnedNamedFrameView) :
    (ForeignPayloadOwner.fromView view).taken (fun owner => [owner.owner]) =
      (allocation view).toList := by
  unfold ForeignPayloadOwner.fromView allocation
  cases view.payloadOwner with
  | none => cases view.releasePayload <;> rfl
  | some o =>
    cases view.releasePayload with
    | false => rfl
    | true =>
      exact taken_scope fun owner howner => by rw [validate_owner howner]

/-- An owner that was returned has the allocation of its view, and nothing was released. -/
theorem fromView_ok {view : OwnedNamedFrameView} {owner : ForeignPayloadOwner}
    (h : (ForeignPayloadOwner.fromView view).result = .ok owner) :
    (ForeignPayloadOwner.fromView view).released = [] ∧ allocation view = some owner.owner := by
  have htaken := fromView_taken view
  unfold Outcome.taken held at htaken
  rw [h] at htaken
  cases hallocation : allocation view with
  | none => simp [hallocation] at htaken
  | some o =>
    rw [hallocation] at htaken
    rcases List.append_eq_singleton_iff.mp htaken with ⟨hreleased, howner⟩ | ⟨-, howner⟩
    · exact ⟨hreleased, by rw [List.singleton_inj.mp howner]⟩
    · simp at howner

/-- After the first pass every allocation is released or in an owner. -/
theorem owners_taken (views : List OwnedNamedFrameView) :
    ((views.map ForeignPayloadOwner.fromView).flatMap (·.released) ++
      (adoptable (views.map ForeignPayloadOwner.fromView)).map (·.owner)).Perm (allocations views) := by
  induction views with
  | nil => exact .refl _
  | cons view views ih =>
    have htaken := fromView_taken view
    unfold Outcome.taken held at htaken
    rw [List.perm_iff_count] at ih ⊢
    intro a
    have ih := ih a
    have hcount := congrArg (List.count a) htaken
    unfold adoptable allocations at *
    simp only [List.map_cons, List.flatMap_cons, List.filterMap_cons]
    cases hresult : (ForeignPayloadOwner.fromView view).result with
    | error e =>
      simp only [hresult] at hcount
      cases hallocation : allocation view with
      | none =>
        simp only [hallocation, Option.toList_none, List.count_append, List.count_nil] at ih hcount ⊢
        omega
      | some o =>
        simp only [hallocation, Option.toList_some, List.count_append, List.count_nil,
          List.count_cons] at ih hcount ⊢
        omega
    | ok owner =>
      obtain ⟨hreleased, hallocation⟩ := fromView_ok hresult
      simp only [hreleased, hallocation, List.map_cons, List.nil_append, List.count_append,
        List.count_cons] at ih ⊢
      omega

/-- When no view was refused, the owners are those of all the views in order. -/
theorem owners_of_firstError {views : List OwnedNamedFrameView}
    (h : firstError (views.map ForeignPayloadOwner.fromView) = none) :
    (views.map ForeignPayloadOwner.fromView).flatMap (·.released) = [] ∧
      views.map allocation = (adoptable (views.map ForeignPayloadOwner.fromView)).map
        (fun owner => some owner.owner) := by
  induction views with
  | nil => exact ⟨rfl, rfl⟩
  | cons view views ih =>
    unfold firstError at h
    simp only [List.map_cons, List.findSome?_cons] at h
    cases hresult : (ForeignPayloadOwner.fromView view).result with
    | error e => simp [hresult] at h
    | ok owner =>
      simp only [hresult] at h
      obtain ⟨hreleased, hallocation⟩ := fromView_ok hresult
      obtain ⟨hrest, howners⟩ := ih h
      unfold adoptable at *
      simp only [List.map_cons, List.flatMap_cons, List.filterMap_cons, hresult, hreleased, hrest,
        hallocation, howners, List.append_nil, and_self]

theorem adoptOwnedFrame_taken [EmptyCollection M] [EmptyCollection E] (pointer : Option FrameView)
    (owner : ForeignPayloadOwner) :
    (adoptOwnedFrame pointer owner : Outcome ℕ FfiError (Frame M E)).taken (fun _ => [owner.owner]) =
      [owner.owner] :=
  taken_scope fun _ _ => rfl

/-- The loop splits the owners: those before a point were pushed, the others released. -/
theorem pushEmissions_split [EmptyCollection M] [EmptyCollection E]
    (pairs : List (OwnedNamedFrameView × ForeignPayloadOwner)) (emissions : List (Emission M E)) :
    ∃ pushed new, (pushEmissions pairs emissions).emissions = emissions ++ new ∧
      new.map (·.owner) = (pairs.take pushed).map (·.2.owner) ∧
      (pushEmissions pairs emissions).released = (pairs.drop pushed).map (·.2.owner) ∧
      ((pushEmissions pairs emissions).result = .ok () → pairs.length ≤ pushed) := by
  induction pairs generalizing emissions with
  | nil => exact ⟨0, [], by simp [pushEmissions], rfl, rfl, fun _ => Nat.le_refl 0⟩
  | cons pair rest ih =>
    obtain ⟨view, owner⟩ := pair
    unfold pushEmissions
    cases hport : ownedPort view with
    | error e => exact ⟨0, [], by simp, rfl, rfl, by simp⟩
    | ok port =>
      have htaken := adoptOwnedFrame_taken (M := M) (E := E) (some view.frame) owner
      unfold Outcome.taken held at htaken
      cases hresult : (adoptOwnedFrame (some view.frame) owner : Outcome ℕ FfiError (Frame M E)).result with
      | error e =>
        rw [hresult, List.append_nil] at htaken
        simp only [hresult, htaken]
        exact ⟨0, [], by simp, rfl, rfl, by simp⟩
      | ok frame =>
        rw [hresult] at htaken
        have hreleased := List.append_left_eq_self.mp htaken
        obtain ⟨pushed, new, hemissions, hnew, hrest, hok⟩ :=
          ih (emissions ++ [⟨port, frame, owner.owner⟩])
        simp only [hresult, hreleased, List.nil_append]
        refine ⟨pushed + 1, ⟨port, frame, owner.owner⟩ :: new, ?_, ?_, ?_, ?_⟩
        · rw [hemissions, List.append_assoc]
          rfl
        · simp [hnew]
        · simp [hrest]
        · intro hresult
          have hlength := hok hresult
          simpa using hlength

theorem allocations_take {views : List OwnedNamedFrameView} {owners : List ForeignPayloadOwner}
    (h : views.map allocation = owners.map (fun owner => some owner.owner)) (k : ℕ) :
    allocations (views.take k) = (owners.take k).map (·.owner) ∧
      allocations (views.drop k) = (owners.drop k).map (·.owner) := by
  have hmap (xs : List OwnedNamedFrameView) : allocations xs = (xs.map allocation).filterMap id := by
    unfold allocations
    rw [List.filterMap_map]
    rfl
  constructor
  · rw [hmap, List.map_take, h, ← List.map_take, List.filterMap_map]
    exact congrFun List.filterMap_eq_map' _
  · rw [hmap, List.map_drop, h, ← List.map_drop, List.filterMap_map]
    exact congrFun List.filterMap_eq_map' _

variable [EmptyCollection M] [EmptyCollection E]

/-- An array that is too long is refused before anything in it is looked at. -/
theorem append_too_many {views : List OwnedNamedFrameView} (emissions : List (Emission M E))
    (h : 4096 < views.length) :
    (appendOwnedEmissions (some views) views.length emissions).Balanced views emissions ↔
      allocations views = [] := by
  unfold appendOwnedEmissions
  rw [if_pos (.inl h)]
  constructor
  · rintro ⟨pushed, new, hemissions, hnew, hreleased, -⟩
    have hnil : new = [] := List.self_eq_append_right.mp hemissions
    rw [hnil] at hnew
    have htake : allocations (views.take pushed) = [] := hnew.symm
    have hdrop : allocations (views.drop pushed) = [] := hreleased.nil_eq.symm
    unfold allocations at *
    rw [← List.take_append_drop pushed views, List.filterMap_append, htake, hdrop]
    rfl
  · intro hnone
    refine ⟨0, [], by simp, rfl, ?_, fun h => by cases h⟩
    rw [List.drop_zero, hnone]

theorem append_within {views : List OwnedNamedFrameView} (emissions : List (Emission M E))
    (h : views.length ≤ 4096) :
    (appendOwnedEmissions (some views) views.length emissions).Balanced views emissions := by
  have hviews : (if views.length = 0 then [] else ((some views).getD []).take views.length) = views := by
    split_ifs with hempty
    · exact (List.length_eq_zero_iff.mp hempty).symm
    · exact List.take_length
  have htaken := owners_taken views
  unfold appendOwnedEmissions
  rw [if_neg (by simp; omega)]
  simp only [hviews]
  cases hfirst : firstError (views.map ForeignPayloadOwner.fromView) with
  | some e => exact ⟨0, [], by simp, rfl, by simpa using htaken, fun h => by cases h⟩
  | none =>
    obtain ⟨hrefused, howners⟩ := owners_of_firstError hfirst
    have hlength := congrArg List.length howners
    simp only [List.length_map] at hlength
    obtain ⟨pushed, new, hemissions, hnew, hreleased, hok⟩ := pushEmissions_split
      (views.zip (adoptable (views.map ForeignPayloadOwner.fromView))) emissions
    obtain ⟨htake, hdrop⟩ := allocations_take howners pushed
    have hzip : (views.zip (adoptable (views.map ForeignPayloadOwner.fromView))).map Prod.snd =
        adoptable (views.map ForeignPayloadOwner.fromView) := List.map_snd_zip (by omega)
    refine ⟨pushed, new, hemissions, ?_, ?_, ?_⟩
    · calc new.map (·.owner)
          = (((views.zip (adoptable (views.map ForeignPayloadOwner.fromView))).take pushed).map
              Prod.snd).map (·.owner) := by rw [hnew, List.map_map]; rfl
        _ = allocations (views.take pushed) := by rw [List.map_take, hzip, htake]
    · apply List.Perm.of_eq
      calc _ = (((views.zip (adoptable (views.map ForeignPayloadOwner.fromView))).drop pushed).map
              Prod.snd).map (·.owner) := by rw [hrefused, hreleased, List.map_map]; rfl
        _ = allocations (views.drop pushed) := by rw [List.map_drop, hzip, hdrop]
    · intro hresult
      have hlast := hok hresult
      rw [List.length_zip] at hlast
      omega

/-- Every allocation is accounted for unless the array is too long; then none is, though each entry
was handed over. -/
theorem emissions_balanced_iff (views : List OwnedNamedFrameView) (emissions : List (Emission M E)) :
    (appendOwnedEmissions (some views) views.length emissions).Balanced views emissions ↔
      views.length ≤ 4096 ∨ allocations views = [] := by
  by_cases h : views.length ≤ 4096
  · exact ⟨fun _ => .inl h, fun _ => append_within emissions h⟩
  · rw [append_too_many emissions (by omega)]
    exact ⟨.inr, fun hor => hor.resolve_left h⟩

/-- 4097 entries of one byte each are leaked. -/
theorem emissions_leaked :
    ¬ (appendOwnedEmissions (some (List.replicate 4097 sampleOwned)) 4097
      ([] : List (Emission (List ℕ) (List ℕ)))).Balanced (List.replicate 4097 sampleOwned) [] := by
  have hleaked := @append_too_many (List ℕ) (List ℕ) _ _ (List.replicate 4097 sampleOwned) []
    (by rw [List.length_replicate]; decide)
  rw [List.length_replicate] at hleaked
  rw [hleaked]
  unfold allocations
  rw [List.filterMap_eq_nil_iff]
  intro hnone
  have hfirst := hnone sampleOwned (List.mem_replicate.mpr ⟨by decide, rfl⟩)
  cases hfirst

end Muxiva.Ffi
