import Mathlib.Data.List.Nodup
import Muxiva.Studio.Connections

/-! What Studio's credential store keeps: the file can always be read again and loses no key, and an
update that succeeds is what a later load finds. -/
set_option linter.all false
namespace Muxiva.Studio

open JsonString (Codec)
open Muxiva.Build (Json)
open ConnectionStore (Io)

section Fields

theorem validateFields_names {names : List Text} {fields : List ConnectionField}
    (h : validateFields names fields = .ok ()) :
    (∀ f ∈ fields, validKey f.environment = true ∧ f.name ∉ names) ∧
      (fields.map (·.name)).Nodup := by
  induction fields generalizing names with
  | nil => simp
  | cons field fields ih =>
    unfold validateFields at h
    split_ifs at h with hname henv
    simp only [Bool.or_eq_true, Bool.not_eq_true', List.contains_iff_mem, not_or,
      Bool.not_eq_false] at hname henv
    obtain ⟨hall, hnodup⟩ := ih h
    refine ⟨?_, ?_⟩
    · intro f hf
      rcases List.mem_cons.mp hf with rfl | hf
      · exact ⟨henv.2, hname.2⟩
      · exact ⟨(hall f hf).1, fun hmem => (hall f hf).2 (List.mem_cons_of_mem _ hmem)⟩
    · rw [List.map_cons, List.nodup_cons]
      refine ⟨?_, hnodup⟩
      intro hmem
      obtain ⟨f, hf, heq⟩ := List.mem_map.mp hmem
      exact (hall f hf).2 (by simp [heq])

theorem validateConnection_fields {c : Connection} (h : validateConnection c = .ok ()) :
    (∀ f ∈ c.fields, validKey f.environment = true) ∧ (c.fields.map (·.name)).Nodup := by
  unfold validateConnection at h
  split_ifs at h
  obtain ⟨hall, hnodup⟩ := validateFields_names h
  exact ⟨fun f hf => (hall f hf).1, hnodup⟩

/-- The map of manifests has each under its id. -/
theorem collected {declared : List Connection} {m m' : SortedMap Text Connection}
    (hm : ∀ e ∈ m.entries, e.1 = e.2.id) (h : declared.foldlM insertConnection m = .ok m') :
    (∀ e ∈ m'.entries, e.1 = e.2.id) ∧ ∀ e ∈ m'.entries, e ∈ m.entries ∨ e.2 ∈ declared := by
  induction declared generalizing m with
  | nil =>
    cases h
    exact ⟨hm, fun e he => .inl he⟩
  | cons c declared ih =>
    rw [List.foldlM_cons] at h
    cases hc : insertConnection m c with
    | error e =>
      rw [hc] at h
      cases h
    | ok m₁ =>
      rw [hc] at h
      have hm₁ : ∀ e ∈ m₁.entries, e ∈ m.entries ∨ e = (c.id, c) := by
        unfold insertConnection at hc
        split at hc
        · split_ifs at hc
          cases hc
          exact fun e he => .inl he
        · cases hc
          exact fun e he => (SortedMap.mem_insertEntry he).symm
      obtain ⟨hid, hfrom⟩ := ih (m := m₁) (fun e he => (hm₁ e he).elim (hm e) fun h => by rw [h]) h
      refine ⟨hid, fun e he => ?_⟩
      rcases hfrom e he with he | he
      · rcases hm₁ e he with he | rfl
        · exact .inl he
        · exact .inr List.mem_cons_self
      · exact .inr (List.mem_cons_of_mem _ he)

/-- The manifests in use are declared ones with distinct ids. -/
theorem collectConnections_spec {declared manifests : List Connection}
    (h : collectConnections declared = .ok manifests) :
    (∀ c ∈ manifests, c ∈ declared) ∧ (manifests.map (·.id)).Nodup := by
  unfold collectConnections at h
  cases hm : declared.foldlM insertConnection .empty with
  | error e =>
    rw [hm] at h
    cases h
  | ok m =>
    rw [hm] at h
    cases h
    obtain ⟨hid, hfrom⟩ := collected (m := .empty) (by simp) hm
    refine ⟨fun c hc => ?_, ?_⟩
    · obtain ⟨e, he, rfl⟩ := List.mem_map.mp hc
      exact (hfrom e he).resolve_left (by simp)
    · have hkeys : (m.entries.map Prod.snd).map (·.id) = m.keys := by
        rw [List.map_map]
        exact List.map_congr_left fun e he => (hid e he).symm
      rw [hkeys]
      exact m.nodup_keys

theorem mem_keyedFields {manifests : List Connection} {e : (Text × Text) × ConnectionField} :
    e ∈ keyedFields manifests ↔ ∃ c ∈ manifests, ∃ f ∈ c.fields, ((c.id, f.name), f) = e := by
  simp [keyedFields]

/-- No two fields have one key. -/
theorem keyedFields_nodup {manifests : List Connection} (hids : (manifests.map (·.id)).Nodup)
    (hnames : ∀ c ∈ manifests, (c.fields.map (·.name)).Nodup) :
    ((keyedFields manifests).map Prod.fst).Nodup := by
  have hkeys : (keyedFields manifests).map Prod.fst =
      manifests.flatMap fun c => (c.fields.map (·.name)).map fun name => (c.id, name) := by
    simp [keyedFields, List.map_flatMap, Function.comp_def]
  rw [hkeys, List.nodup_flatMap]
  refine ⟨fun c hc => (hnames c hc).map fun _ _ h => (Prod.mk.inj h).2, ?_⟩
  refine (List.pairwise_map.mp hids).imp fun {c d} hne => ?_
  intro key hc hd
  obtain ⟨_, -, rfl⟩ := List.mem_map.mp hc
  obtain ⟨_, -, heq⟩ := List.mem_map.mp hd
  exact hne (Prod.mk.inj heq).1.symm

end Fields

section Overlay

variable {s : ConnectionStore}

/-- The value that the fields of an environment variable give it. -/
def ConnectionStore.overlay (s : ConnectionStore) : Process := s.setProcess fun _ => none

theorem setProcess_apply (process : Process) (key : Text) :
    s.setProcess process key = (s.overlay key).or (process key) := by
  unfold ConnectionStore.overlay ConnectionStore.setProcess
  induction keyedFields s.manifests using List.reverseRecOn with
  | nil => rfl
  | append_singleton es e ih =>
    simp only [List.foldl_append, List.foldl_cons, List.foldl_nil]
    cases s.values e.1 with
    | none => exact ih
    | some value =>
      by_cases hkey : key = e.2.environment
      · simp [hkey]
      · simpa [hkey] using ih

theorem get?_overFile (file : Environment) (key : Text) :
    (s.overFile file).get? key = (s.overlay key).or (file.get? key) := by
  unfold ConnectionStore.overlay ConnectionStore.setProcess ConnectionStore.overFile
  induction keyedFields s.manifests using List.reverseRecOn with
  | nil => rfl
  | append_singleton es e ih =>
    simp only [List.foldl_append, List.foldl_cons, List.foldl_nil]
    cases s.values e.1 with
    | none => exact ih
    | some value =>
      by_cases hkey : key = e.2.environment
      · simp [hkey]
      · simpa [hkey] using ih

/-- Only the environment variables of fields with a value are overlaid. -/
theorem overlay_eq_some {key value : Text} (h : s.overlay key = some value) :
    ∃ e ∈ keyedFields s.manifests, e.2.environment = key ∧ s.values e.1 = some value := by
  unfold ConnectionStore.overlay ConnectionStore.setProcess at h
  generalize keyedFields s.manifests = es at h ⊢
  induction es using List.reverseRecOn with
  | nil => cases h
  | append_singleton es e ih =>
    have hlater : ∀ e' ∈ es, e' ∈ es ++ [e] := fun e' he' => List.mem_append_left _ he'
    simp only [List.foldl_append, List.foldl_cons, List.foldl_nil] at h
    cases hvalue : s.values e.1 with
    | none =>
      rw [hvalue] at h
      obtain ⟨e', he', heq⟩ := ih h
      exact ⟨e', hlater e' he', heq⟩
    | some v =>
      rw [hvalue] at h
      by_cases hkey : key = e.2.environment
      · subst hkey
        simp only [Function.update_self, Option.some.injEq] at h
        exact ⟨e, by simp, rfl, by rw [hvalue, h]⟩
      · simp only [Function.update_of_ne hkey] at h
        obtain ⟨e', he', heq⟩ := ih h
        exact ⟨e', hlater e' he', heq⟩

theorem overlay_isSome {e : (Text × Text) × ConnectionField} (he : e ∈ keyedFields s.manifests)
    (hvalue : (s.values e.1).isSome = true) : (s.overlay e.2.environment).isSome = true := by
  unfold ConnectionStore.overlay ConnectionStore.setProcess
  generalize keyedFields s.manifests = es at he ⊢
  induction es using List.reverseRecOn with
  | nil => cases he
  | append_singleton es e' ih =>
    simp only [List.foldl_append, List.foldl_cons, List.foldl_nil]
    rcases List.mem_append.mp he with he | he
    · cases s.values e'.1 with
      | none => exact ih he
      | some v =>
        by_cases hkey : e.2.environment = e'.2.environment
        · simp [hkey]
        · simpa [hkey] using ih he
    · obtain rfl := List.mem_singleton.mp he
      obtain ⟨v, hv⟩ := Option.isSome_iff_exists.mp hvalue
      simp [hv]

/-- A field whose environment variable is its own gives it its value. -/
theorem overlay_eq {e : (Text × Text) × ConnectionField} (he : e ∈ keyedFields s.manifests)
    (hown : ∀ e' ∈ keyedFields s.manifests, e'.2.environment = e.2.environment → e'.1 = e.1) :
    s.overlay e.2.environment = s.values e.1 := by
  cases hover : s.overlay e.2.environment with
  | none =>
    cases hvalue : s.values e.1 with
    | none => rfl
    | some v =>
      have hsome := overlay_isSome he (by rw [hvalue]; rfl)
      rw [hover] at hsome
      cases hsome
  | some value =>
    obtain ⟨e', he', henv, hvalue⟩ := overlay_eq_some hover
    rw [← hown e' he' henv, hvalue]

end Overlay

section Load

/-- A value, unless it is empty. -/
def nonempty (value : Text) : Option Text := if value = [] then none else some value

theorem loadField_apply (process : Process) (file : Environment) (values : Values)
    (e : (Text × Text) × ConnectionField) :
    loadField process file values e e.1 =
      (nonempty (resolve process file e.2)).or (values e.1) := by
  unfold loadField nonempty
  split_ifs
  · rfl
  · simp

theorem loadField_of_ne (process : Process) (file : Environment) (values : Values)
    {e : (Text × Text) × ConnectionField} {key : Text × Text} (h : key ≠ e.1) :
    loadField process file values e key = values key := by
  unfold loadField
  split_ifs
  · rfl
  · exact Function.update_of_ne h _ _

theorem foldl_loadField {process : Process} {file : Environment} {key : Text × Text}
    {es : List ((Text × Text) × ConnectionField)} (h : key ∉ es.map Prod.fst) (values : Values) :
    es.foldl (loadField process file) values key = values key := by
  induction es generalizing values with
  | nil => rfl
  | cons e es ih =>
    simp only [List.map_cons, List.mem_cons, not_or] at h
    rw [List.foldl_cons, ih h.2, loadField_of_ne _ _ _ h.1]

theorem loadValues_mem {manifests : List Connection} {process : Process} {file : Environment}
    (hnodup : ((keyedFields manifests).map Prod.fst).Nodup)
    {e : (Text × Text) × ConnectionField} (he : e ∈ keyedFields manifests) :
    loadValues manifests process file e.1 = nonempty (resolve process file e.2) := by
  obtain ⟨before, after, hsplit⟩ := List.append_of_mem he
  unfold loadValues
  rw [hsplit] at hnodup ⊢
  simp only [List.map_append, List.map_cons, List.nodup_append, List.nodup_cons] at hnodup
  obtain ⟨-, ⟨hafter, -⟩, hbefore⟩ := hnodup
  have hnot : e.1 ∉ before.map Prod.fst := fun h => hbefore e.1 h e.1 List.mem_cons_self rfl
  rw [List.foldl_append, List.foldl_cons, foldl_loadField hafter, loadField_apply,
    foldl_loadField hnot, Option.or_none]

end Load

section Update

variable {connection : Connection} {manifests : List Connection} {values values' : Values}
  {r : Except Text Unit}

/-- What an update may do to the values: no field loses its value, and a new one has no NUL. -/
structure Grows (values values' : Values) : Prop where
  kept : ∀ key, (values key).isSome = true → (values' key).isSome = true
  fresh : ∀ key, values' key = values key ∨ ∃ value, values' key = some value ∧
    hasNul value = false

theorem Grows.refl (values : Values) : Grows values values := ⟨fun _ h => h, fun _ => .inl rfl⟩

theorem Grows.trans {values'' : Values} (h : Grows values values') (h' : Grows values' values'') :
    Grows values values'' := by
  refine ⟨fun key hkey => h'.kept key (h.kept key hkey), fun key => ?_⟩
  rcases h'.fresh key with heq | hnew
  · rw [heq]
    exact h.fresh key
  · exact .inr hnew

theorem Grows.update (key : Text × Text) {value : Text} (h : hasNul value = false) :
    Grows values (Function.update values key (some value)) := by
  refine ⟨fun key' hkey => ?_, fun key' => ?_⟩
  · by_cases heq : key' = key
    · simp [heq]
    · simpa [heq] using hkey
  · by_cases heq : key' = key
    · exact .inr ⟨value, by simp [heq], h⟩
    · exact .inl (by simp [heq])

theorem mem_of_mem_trim {t : Text} {c : Char} (h : c ∈ trim t) : c ∈ t := by
  unfold trim at h
  rw [List.mem_reverse] at h
  exact List.dropWhile_subset _ (List.mem_reverse.mp (List.dropWhile_subset _ h))

theorem checkedValue_noNul {id : Text} {field : ConnectionField} {value : Json} {new : Text}
    (h : checkedValue id field value = .ok (some new)) : hasNul new = false := by
  unfold checkedValue at h
  simp only at h
  split at h
  · next value =>
    split_ifs at h with hlength hnul hsecret
    · cases h
    · rw [← Option.some.inj (Except.ok.inj h)]
      rw [Bool.or_eq_true, not_or, Bool.not_eq_true] at hnul
      have hall := hnul.1
      unfold hasNul at hall ⊢
      rw [List.any_eq_false] at hall ⊢
      exact fun c hc => hall c (mem_of_mem_trim hc)
  · cases h

theorem updateFields_grows {entries : List (String × Json)}
    (h : updateFields connection entries values = (r, values')) : Grows values values' := by
  induction entries generalizing values with
  | nil =>
    cases h
    exact .refl _
  | cons entry entries ih =>
    obtain ⟨name, value⟩ := entry
    unfold updateFields at h
    cases hfind : connection.fields.find? (·.name = name.toList) with
    | none =>
      simp only [hfind] at h
      cases h
      exact .refl _
    | some field =>
      simp only [hfind] at h
      cases hcheck : checkedValue connection.id field value with
      | error e =>
        simp only [hcheck] at h
        cases h
        exact .refl _
      | ok new =>
        cases new with
        | none =>
          simp only [hcheck] at h
          exact ih h
        | some new =>
          simp only [hcheck] at h
          exact (Grows.update _ (checkedValue_noNul hcheck)).trans (ih h)

theorem updateConnections_grows {entries : List (String × Json)}
    (h : updateConnections manifests entries values = (r, values')) : Grows values values' := by
  induction entries generalizing values with
  | nil =>
    cases h
    exact .refl _
  | cons entry entries ih =>
    obtain ⟨id, update⟩ := entry
    unfold updateConnections at h
    cases hfind : manifests.find? (·.id = id.toList) with
    | none =>
      simp only [hfind] at h
      cases h
      exact .refl _
    | some connection =>
      simp only [hfind] at h
      split at h
      · next fields =>
        rcases hfields : updateFields connection fields values with ⟨_ | _, values₁⟩
        · simp only [hfields] at h
          cases h
          exact updateFields_grows hfields
        · simp only [hfields] at h
          exact (updateFields_grows hfields).trans (ih h)
      · cases h
        exact .refl _

end Update

section Steps

variable {J : Codec} {x x' : Session} {input : Option Json} {io : Io}

/-- An update either changes nothing but values, with an error, or writes them all. -/
theorem updateJson_cases {r : Except Text Unit} (h : x.updateJson J input io = (r, x')) :
    x'.store.manifests = x.store.manifests ∧ Grows x.store.values x'.store.values ∧
      ((∃ e, r = .error e) ∧ x'.world = x.world ∨
        r = .ok () ∧ ∃ file, readDotenv J x.world.path (x.world.read none) = .ok file ∧
          x'.world = { x.world with
            file := some (renderDotenv J (x'.store.overFile file))
            process := x'.store.setProcess x.world.process }) := by
  unfold Session.updateJson at h
  cases hrequest : requestedUpdates input with
  | error e =>
    simp only [hrequest] at h
    cases h
    exact ⟨rfl, .refl _, .inl ⟨⟨e, rfl⟩, rfl⟩⟩
  | ok updates =>
    simp only [hrequest] at h
    rcases hupdate : updateConnections x.store.manifests updates x.store.values with
      ⟨e | u, values⟩
    · simp only [hupdate] at h
      cases h
      exact ⟨rfl, updateConnections_grows hupdate, .inl ⟨⟨e, rfl⟩, rfl⟩⟩
    · have hgrows := updateConnections_grows hupdate
      simp only [hupdate, ConnectionStore.persistDotenv] at h
      cases hread : readDotenv J x.world.path (x.world.read io.readError) with
      | error e =>
        simp only [hread] at h
        cases h
        exact ⟨rfl, hgrows, .inl ⟨⟨e, rfl⟩, rfl⟩⟩
      | ok file =>
        have hnone : io.readError = none := by
          cases herror : io.readError with
          | none => rfl
          | some e =>
            rw [herror] at hread
            cases hread
        rw [hnone] at hread
        cases hwrite : io.writeError with
        | some e =>
          simp only [hnone, hread, hwrite] at h
          cases h
          exact ⟨rfl, hgrows, .inl ⟨⟨e, rfl⟩, rfl⟩⟩
        | none =>
          simp only [hnone, hread, hwrite] at h
          cases h
          exact ⟨rfl, hgrows, .inr ⟨rfl, file, hread, rfl⟩⟩

end Steps

section Runs

variable {J : Codec} {declared : List Connection} {w : World} {m₀ : Environment} {x x' y : Session}

/-- Keys of no field are as they were, and no key is lost. -/
structure FileKept (manifests : List Connection) (m₀ m : Environment) : Prop where
  others : ∀ key, (∀ e ∈ keyedFields manifests, e.2.environment ≠ key) → m.get? key = m₀.get? key
  keys : ∀ key, (m₀.get? key).isSome = true → (m.get? key).isSome = true

/-- The file can be read, fields whose variable no value is for would be loaded as empty, and every
value can be set in the process environment. -/
structure Kept (J : Codec) (declared : List Connection) (m₀ : Environment) (x : Session) : Prop where
  manifests : collectConnections declared = .ok x.store.manifests
  file : ∃ m, readDotenv J x.world.path (x.world.read none) = .ok m ∧
    FileKept x.store.manifests m₀ m ∧ ∀ e ∈ keyedFields x.store.manifests,
      x.store.overlay e.2.environment = none → resolve x.world.process m e.2 = []
  noNul : ∀ e ∈ keyedFields x.store.manifests, ∀ value, x.store.values e.1 = some value →
    hasNul value = false

theorem load_cases {failed : Option Text} (h : load J declared w failed = some (.ok x)) :
    collectConnections declared = .ok x.store.manifests ∧
      ∃ file, readDotenv J w.path (w.read none) = .ok file ∧
        x.store.values = loadValues x.store.manifests w.process file ∧
        x.world = { w with process := x.store.setProcess w.process } ∧ x.store.panics = false := by
  unfold load at h
  cases hcollect : collectConnections declared with
  | error e => simp [hcollect] at h
  | ok manifests =>
    cases hread : readDotenv J w.path (w.read failed) with
    | error e => simp [hcollect, hread] at h
    | ok file =>
      simp only [hcollect, hread] at h
      split_ifs at h with hpanics
      cases h
      have hnone : failed = none := by
        cases failed with
        | none => rfl
        | some e => cases hread
      rw [hnone] at hread
      exact ⟨rfl, file, hread, rfl, rfl, by simpa using hpanics⟩

theorem resolve_congr {process process' : Process} {file file' : Environment}
    {field : ConnectionField} (hprocess : process' field.environment = process field.environment)
    (hfile : file'.get? field.environment = file.get? field.environment) :
    resolve process' file' field = resolve process file field := by
  unfold resolve
  rw [hprocess, hfile]

section Manifests

variable (hvalid : ∀ c ∈ declared, validateConnection c = .ok ()) {manifests : List Connection}
  (hcollect : collectConnections declared = .ok manifests)

include hvalid hcollect

theorem keys_distinct : ((keyedFields manifests).map Prod.fst).Nodup := by
  obtain ⟨hmem, hids⟩ := collectConnections_spec hcollect
  apply keyedFields_nodup hids
  intro c hc
  exact (validateConnection_fields (hvalid c (hmem c hc))).2

theorem environment_valid {e : (Text × Text) × ConnectionField} (he : e ∈ keyedFields manifests) :
    validKey e.2.environment = true := by
  obtain ⟨hmem, -⟩ := collectConnections_spec hcollect
  obtain ⟨c, hc, f, hf, rfl⟩ := mem_keyedFields.mp he
  exact (validateConnection_fields (hvalid c (hmem c hc))).1 f hf

end Manifests

theorem overFile_valid {s : ConnectionStore} {file : Environment} (hfile : KeysValid file)
    (henv : ∀ e ∈ keyedFields s.manifests, validKey e.2.environment = true) :
    KeysValid (s.overFile file) := by
  rintro ⟨key, value⟩ he
  rw [SortedMap.mem_entries_iff, get?_overFile, Option.or_eq_some_iff] at he
  rcases he with hover | ⟨-, hold⟩
  · obtain ⟨e, he, rfl, -⟩ := overlay_eq_some hover
    exact henv e he
  · exact hfile _ ((SortedMap.mem_entries_iff _ _ _).mpr hold)

variable (hvalid : ∀ c ∈ declared, validateConnection c = .ok ())

include hvalid

theorem kept_load {failed : Option Text} (h : load J declared w failed = some (.ok x))
    (hfile : ∀ m, readDotenv J w.path (w.read none) = .ok m → FileKept x.store.manifests m₀ m) :
    Kept J declared m₀ x := by
  obtain ⟨hcollect, file, hread, hvalues, hworld, hpanics⟩ := load_cases h
  have hnodup := keys_distinct hvalid hcollect
  refine ⟨hcollect, ⟨file, ?_, hfile file hread, fun e he hover => ?_⟩, fun e he value hvalue => ?_⟩
  · rw [hworld]
    exact hread
  · have hnone : x.store.values e.1 = none := by
      by_contra hsome
      have hset := overlay_isSome he (Option.isSome_iff_ne_none.mpr hsome)
      rw [hover] at hset
      cases hset
    rw [hvalues, loadValues_mem hnodup he] at hnone
    have hempty : resolve w.process file e.2 = [] := by
      unfold nonempty at hnone
      split_ifs at hnone with hempty
      exact hempty
    rw [← hempty, hworld]
    apply resolve_congr _ rfl
    simp only
    rw [setProcess_apply, hover, Option.none_or]
  · unfold ConnectionStore.panics at hpanics
    rw [List.any_eq_false] at hpanics
    have hfalse := hpanics e he
    simpa [hvalue] using hfalse

theorem kept_update {input : Option Json} {io : Io} {r : Except Text Unit}
    (hkept : Kept J declared m₀ x) (h : x.updateJson J input io = (r, x')) :
    Kept J declared m₀ x' := by
  obtain ⟨hmanifests, hgrows, hcases⟩ := updateJson_cases h
  obtain ⟨m, hread, hfile, hempty⟩ := hkept.file
  have hcollect : collectConnections declared = .ok x'.store.manifests := by
    rw [hmanifests]
    exact hkept.manifests
  have hover : ∀ e ∈ keyedFields x.store.manifests, x'.store.overlay e.2.environment = none →
      x.store.overlay e.2.environment = none := by
    intro e he hnone
    by_contra hsome
    obtain ⟨value, hvalue⟩ := Option.ne_none_iff_exists'.mp hsome
    obtain ⟨e', he', henv, hset⟩ := overlay_eq_some hvalue
    have hkeep := hgrows.kept e'.1 (by rw [hset]; rfl)
    have hset' := overlay_isSome (s := x'.store) (e := e') (by rw [hmanifests]; exact he') hkeep
    rw [henv, hnone] at hset'
    cases hset'
  have hnul : ∀ e ∈ keyedFields x'.store.manifests, ∀ value, x'.store.values e.1 = some value →
      hasNul value = false := by
    intro e he value hvalue
    rw [hmanifests] at he
    rcases hgrows.fresh e.1 with heq | ⟨v, heq, hfree⟩
    · exact hkept.noNul e he value (heq ▸ hvalue)
    · rw [heq] at hvalue
      cases hvalue
      exact hfree
  rcases hcases with ⟨-, hworld⟩ | ⟨-, file, hread', hworld⟩
  · refine ⟨hcollect, ⟨m, ?_, ?_, fun e he hnone => ?_⟩, hnul⟩
    · rw [hworld]
      exact hread
    · rw [hmanifests]
      exact hfile
    · rw [hmanifests] at he
      rw [hworld]
      exact hempty e he (hover e he hnone)
  · rw [hread] at hread'
    cases hread'
    have hkeys : KeysValid (x'.store.overFile m) := by
      apply overFile_valid (readDotenv_valid hread)
      exact fun e he => environment_valid hvalid hcollect he
    refine ⟨hcollect, ⟨x'.store.overFile m, ?_, ?_, fun e he hnone => ?_⟩, hnul⟩
    · rw [hworld]
      exact readDotenv_render J _ hkeys
    · refine ⟨fun key hkey => ?_, fun key hkey => ?_⟩
      · have hnone : x'.store.overlay key = none := by
          by_contra hsome
          obtain ⟨value, hvalue⟩ := Option.ne_none_iff_exists'.mp hsome
          obtain ⟨e, he, henv, -⟩ := overlay_eq_some hvalue
          exact hkey e he henv
        rw [get?_overFile, hnone, Option.none_or]
        exact hfile.others key (by rw [← hmanifests]; exact hkey)
      · rw [get?_overFile, Option.isSome_or, hfile.keys key hkey, Bool.or_true]
    · rw [hmanifests] at he
      rw [← hempty e he (hover e he hnone), hworld]
      apply resolve_congr
      · simp only
        rw [setProcess_apply, hnone, Option.none_or]
      · rw [get?_overFile, hnone, Option.none_or]

theorem kept_reachable (h₀ : readDotenv J w.path (w.read none) = .ok m₀)
    (hr : (connectionSystem J declared w).Reachable x) : Kept J declared m₀ x := by
  refine hr.invariant (I := Kept J declared m₀) (fun x h => ?_) fun x a x' _ hkept h => ?_
  · apply kept_load hvalid h
    intro m hm
    rw [h₀] at hm
    cases hm
    exact ⟨fun _ _ => rfl, fun _ h => h⟩
  · cases a with
    | update input io =>
      cases h
      exact kept_update hvalid hkept rfl
    | restart process failed =>
      simp only [connectionSystem] at h
      split at h
      · next y hload =>
        cases h
        obtain ⟨m, hread, hfile, -⟩ := hkept.file
        apply kept_load hvalid hload
        intro m' hm'
        have hsame : (World.read { x.world with process } none) = x.world.read none := rfl
        rw [hsame, hread] at hm'
        cases hm'
        obtain ⟨hcollect, -⟩ := load_cases hload
        have heq := hkept.manifests.symm.trans hcollect
        rw [← Except.ok.inj heq]
        exact hfile
      · cases h

/-- A load in the process of an update that has succeeded. -/
theorem reloaded {input : Option Json} {io : Io} (hkept : Kept J declared m₀ x)
    (h : x.updateJson J input io = (.ok (), x')) :
    ∃ y, load J declared x'.world none = some (.ok y) ∧
      y.store.manifests = x'.store.manifests ∧ ∀ e ∈ keyedFields x'.store.manifests,
        y.store.values e.1 = (x'.store.overlay e.2.environment).bind nonempty := by
  have hkept' := kept_update hvalid hkept h
  obtain ⟨m, hread, -, hempty⟩ := hkept'.file
  obtain ⟨-, -, hcases⟩ := updateJson_cases h
  have hprocess : x'.world.process = x'.store.setProcess x.world.process := by
    rcases hcases with ⟨⟨e, he⟩, -⟩ | ⟨-, file, -, hworld⟩
    · cases he
    · rw [hworld]
  have hvalues : ∀ e ∈ keyedFields x'.store.manifests,
      loadValues x'.store.manifests x'.world.process m e.1 =
        (x'.store.overlay e.2.environment).bind nonempty := by
    intro e he
    rw [loadValues_mem (keys_distinct hvalid hkept'.manifests) he]
    cases hover : x'.store.overlay e.2.environment with
    | none => rw [hempty e he hover]; rfl
    | some value =>
      have hset : x'.world.process e.2.environment = some value := by
        rw [hprocess, setProcess_apply, hover, Option.some_or]
      unfold resolve
      rw [hset]
      rfl
  have hpanics : (ConnectionStore.mk x'.store.manifests
      (loadValues x'.store.manifests x'.world.process m)).panics = false := by
    unfold ConnectionStore.panics
    rw [List.any_eq_false]
    intro e he
    simp only
    rw [hvalues e he]
    cases hover : x'.store.overlay e.2.environment with
    | none => simp
    | some value =>
      obtain ⟨e', he', -, hvalue⟩ := overlay_eq_some hover
      have hfree := hkept'.noNul e' he' value hvalue
      unfold nonempty
      by_cases hnil : value = [] <;> simp [hnil, hfree]
  refine ⟨⟨⟨x'.store.manifests, loadValues x'.store.manifests x'.world.process m⟩,
    { x'.world with process := ConnectionStore.setProcess ⟨x'.store.manifests,
      loadValues x'.store.manifests x'.world.process m⟩ x'.world.process }⟩, ?_, rfl, hvalues⟩
  unfold load
  simp only [hkept'.manifests, hread, hpanics, Bool.false_eq_true, if_false]

end Runs

/-- No environment variable is that of two fields. -/
def DistinctVariables (manifests : List Connection) : Prop :=
  ∀ e ∈ keyedFields manifests, ∀ e' ∈ keyedFields manifests,
    e'.2.environment = e.2.environment → e'.1 = e.1

/-- The status does not tell an empty value from none. -/
theorem statusJson_congr {s t : ConnectionStore} (hmanifests : t.manifests = s.manifests)
    (h : ∀ e ∈ keyedFields s.manifests, t.values e.1 = (s.values e.1).bind nonempty) :
    t.statusJson = s.statusJson := by
  have hvalue : ∀ c ∈ s.manifests, ∀ f ∈ c.fields,
      t.isSet c f = s.isSet c f ∧
        (t.values (c.id, f.name)).getD [] = (s.values (c.id, f.name)).getD [] := by
    intro c hc f hf
    have hbind := h _ (mem_keyedFields.mpr ⟨c, hc, f, hf, rfl⟩)
    unfold ConnectionStore.isSet
    simp only at hbind
    rw [hbind]
    cases s.values (c.id, f.name) with
    | none => exact ⟨rfl, rfl⟩
    | some value =>
      unfold nonempty
      by_cases hnil : value = [] <;> simp [hnil]
  unfold ConnectionStore.statusJson
  rw [hmanifests]
  apply List.map_congr_left
  intro c hc
  have hconfigured : c.fields.all (fun field => !field.required || t.isSet c field) =
      c.fields.all fun field => !field.required || s.isSet c field := by
    rw [Bool.eq_iff_iff, List.all_eq_true, List.all_eq_true]
    apply forall₂_congr
    intro f hf
    rw [(hvalue c hc f hf).1]
  rw [hconfigured]
  congr 1
  apply List.map_congr_left
  intro f hf
  rw [(hvalue c hc f hf).1, (hvalue c hc f hf).2]

/-- Over any requests and restarts the file can be read, with the keys it had and the values of
foreign ones; a failed update leaves the file and the environment alone; one that succeeds is written
over the file, and a later load in the process finds it. -/
theorem credentials_kept {J : Codec} {declared : List Connection} {w : World} {m₀ : Environment}
    {x : Session} (hvalid : ∀ c ∈ declared, validateConnection c = .ok ())
    (h₀ : readDotenv J w.path (w.read none) = .ok m₀)
    (hr : (connectionSystem J declared w).Reachable x) :
    (∃ m, readDotenv J x.world.path (x.world.read none) = .ok m ∧
      FileKept x.store.manifests m₀ m) ∧
    ∀ input io r x', x.updateJson J input io = (r, x') →
      (∀ e, r = .error e → x'.world = x.world) ∧
      (r = .ok () → ∃ m m' y, readDotenv J x.world.path (x.world.read none) = .ok m ∧
        readDotenv J x'.world.path (x'.world.read none) = .ok m' ∧
        (∀ key, m'.get? key = (x'.store.overlay key).or (m.get? key)) ∧
        load J declared x'.world none = some (.ok y) ∧
        (∀ e ∈ keyedFields x'.store.manifests,
          y.store.values e.1 = (x'.store.overlay e.2.environment).bind nonempty) ∧
        (DistinctVariables x'.store.manifests → y.store.statusJson = x'.store.statusJson)) := by
  have hkept := kept_reachable hvalid h₀ hr
  obtain ⟨m, hread, hfile, -⟩ := hkept.file
  refine ⟨⟨m, hread, hfile⟩, fun input io r x' h => ⟨fun e he => ?_, fun hok => ?_⟩⟩
  · obtain ⟨-, -, ⟨-, hworld⟩ | ⟨hok, -⟩⟩ := updateJson_cases h
    · exact hworld
    · rw [he] at hok
      cases hok
  · subst hok
    have hkept' := kept_update hvalid hkept h
    obtain ⟨y, hload, hmanifests, hvalues⟩ := reloaded hvalid hkept h
    obtain ⟨-, -, ⟨⟨e, he⟩, -⟩ | ⟨-, file, hread', hworld⟩⟩ := updateJson_cases h
    · cases he
    · rw [hread] at hread'
      cases hread'
      have hkeys : KeysValid (x'.store.overFile m) := by
        apply overFile_valid (readDotenv_valid hread)
        exact fun e he => environment_valid hvalid hkept'.manifests he
      refine ⟨m, x'.store.overFile m, y, hread, ?_, get?_overFile m, hload, hvalues, fun hown => ?_⟩
      · rw [hworld]
        exact readDotenv_render J _ hkeys
      · apply statusJson_congr hmanifests
        intro e he
        rw [hvalues e he, overlay_eq he (hown e he)]

def sampleConnection : Connection :=
  ⟨"example".toList, "Example".toList, [],
    [⟨"api_key".toList, "API Key".toList, "EXAMPLE_API_KEY".toList, true, true, false, []⟩]⟩

/-- A project with a variable of its own in the file. -/
def sampleWorld : World := ⟨".env".toList, some "OTHER=1\n".toList, fun _ => none⟩

def sampleUpdate : Json :=
  .object [("connections", .object [("example", .object [("api_key", .string "k\"1")])])]

/-- The key is written beside the project's own variable and loaded again. -/
theorem credentials_kept_sample :
    ∃ x x' y, (connectionSystem JsonString.standard [sampleConnection] sampleWorld).Reachable x ∧
      x.updateJson JsonString.standard (some sampleUpdate) ⟨none, none⟩ = (.ok (), x') ∧
      x'.world.file = some (dotenvHeader ++
        "\nEXAMPLE_API_KEY=\"k\\\"1\"\nOTHER=\"1\"\n".toList) ∧
      load JsonString.standard [sampleConnection] x'.world none = some (.ok y) ∧
      y.store.statusJson = x'.store.statusJson := by
  obtain ⟨x, hr, hok, hfile, hmanifests⟩ : ∃ x,
      (connectionSystem JsonString.standard [sampleConnection] sampleWorld).Reachable x ∧
      (x.updateJson JsonString.standard (some sampleUpdate) ⟨none, none⟩).1 = .ok () ∧
      (x.updateJson JsonString.standard (some sampleUpdate) ⟨none, none⟩).2.world.file =
        some (dotenvHeader ++ "\nEXAMPLE_API_KEY=\"k\\\"1\"\nOTHER=\"1\"\n".toList) ∧
      (x.updateJson JsonString.standard (some sampleUpdate) ⟨none, none⟩).2.store.manifests =
        [sampleConnection] := ⟨_, .init rfl, rfl, by decide +kernel, rfl⟩
  rcases hupdate : x.updateJson JsonString.standard (some sampleUpdate) ⟨none, none⟩ with ⟨r, x'⟩
  rw [hupdate] at hok hfile hmanifests
  cases hok
  have hvalid : ∀ c ∈ [sampleConnection], validateConnection c = .ok () := by
    intro c hc
    rw [List.mem_singleton.mp hc]
    rfl
  obtain ⟨-, hstep⟩ := credentials_kept hvalid rfl hr
  obtain ⟨-, -, y, -, -, -, hload, -, hstatus⟩ := (hstep _ _ _ x' hupdate).2 rfl
  refine ⟨x, x', y, hr, hupdate, hfile, hload, hstatus ?_⟩
  have hfields : ∃ e, keyedFields x'.store.manifests = [e] := by
    rw [hmanifests]
    exact ⟨_, rfl⟩
  obtain ⟨e, hfields⟩ := hfields
  intro e₁ he₁ e₂ he₂ _
  rw [hfields, List.mem_singleton] at he₁ he₂
  rw [he₁, he₂]

end Muxiva.Studio
