import Mathlib.Algebra.Group.Int.Defs
import Mathlib.Algebra.GroupWithZero.Nat
import Muxiva.Build.Document

/-! Configuration values cross the JSON boundary in both directions without a change, bytes
apart. -/
set_option linter.all false
namespace Muxiva.Build

/-- `serde_json::Number::from(i64)`. -/
def numberFromI64 (i : ℤ) : JsonNumber :=
  if i < 0 then .negInt (Int64.ofInt i) else .posInt (UInt64.ofNat i.toNat)

/-- `serde_json::Number::from_f64`: nothing for a float that is not finite. -/
def numberFromF64 (bits : UInt64) : Option JsonNumber :=
  if isFiniteBits bits then some (.float bits) else none

mutual
def valueToJson : Value → Json
  | .null => .null
  | .bool b => .bool b
  | .integer i => .number (numberFromI64 i)
  | .float bits => ((numberFromF64 bits).map Json.number).getD .null
  | .string s => .string s
  | .bytes data => .array (data.map fun byte => .number (.posInt byte.toUInt64))
  | .list values => .array (valuesToJson values)
  | .map entries => .object (entriesToJson entries)
def valuesToJson : List Value → List Json
  | [] => []
  | value :: values => valueToJson value :: valuesToJson values
def entriesToJson : List (String × Value) → List (String × Json)
  | [] => []
  | (key, value) :: entries => (key, valueToJson value) :: entriesToJson entries
end

/-- What `serde_json::Number` keeps of its own: integers are apart by sign, floats are finite. -/
def JsonNumber.WellFormed : JsonNumber → Prop
  | .posInt _ => True
  | .negInt i => i.toInt < 0
  | .float bits => isFiniteBits bits

mutual
/-- The values of `serde_json::Value`: an object is an ordered map. -/
def Json.WellFormed : Json → Prop
  | .number n => n.WellFormed
  | .array values => Json.AllWellFormed values
  | .object entries => (entries.map Prod.fst).Pairwise (· < ·) ∧ Json.EntriesWellFormed entries
  | _ => True
def Json.AllWellFormed : List Json → Prop
  | [] => True
  | value :: values => value.WellFormed ∧ Json.AllWellFormed values
def Json.EntriesWellFormed : List (String × Json) → Prop
  | [] => True
  | (_, value) :: entries => value.WellFormed ∧ Json.EntriesWellFormed entries
end

mutual
/-- The values of `Value`: `i64` integers, finite floats, ordered maps with valid keys. -/
def Value.WellFormed : Value → Prop
  | .integer i => -2 ^ 63 ≤ i ∧ i < 2 ^ 63
  | .float bits => isFiniteBits bits
  | .list values => Value.AllWellFormed values
  | .map entries => (entries.map Prod.fst).Pairwise (· < ·) ∧
      (∀ entry ∈ entries, isValueKey entry.1) ∧ Value.EntriesWellFormed entries
  | _ => True
def Value.AllWellFormed : List Value → Prop
  | [] => True
  | value :: values => value.WellFormed ∧ Value.AllWellFormed values
def Value.EntriesWellFormed : List (String × Value) → Prop
  | [] => True
  | (_, value) :: entries => value.WellFormed ∧ Value.EntriesWellFormed entries
end

mutual
/-- No `Bytes` at any depth. -/
def Value.BytesFree : Value → Prop
  | .bytes _ => False
  | .list values => Value.AllBytesFree values
  | .map entries => Value.EntriesBytesFree entries
  | _ => True
def Value.AllBytesFree : List Value → Prop
  | [] => True
  | value :: values => value.BytesFree ∧ Value.AllBytesFree values
def Value.EntriesBytesFree : List (String × Value) → Prop
  | [] => True
  | (_, value) :: entries => value.BytesFree ∧ Value.EntriesBytesFree entries
end

section Numbers

theorem numberFromI64_numberFromJson {n : JsonNumber} (hn : n.WellFormed) {v : Value}
    (h : numberFromJson n = .ok v) : valueToJson v = .number n := by
  cases n with
  | posInt n =>
    simp only [numberFromJson] at h
    split_ifs at h with hlt
    rw [← Except.ok.inj h]
    have hnonneg : ¬ (n.toNat : ℤ) < 0 := by omega
    simp [valueToJson, numberFromI64, hnonneg]
  | negInt i =>
    rw [← Except.ok.inj h]
    have hneg : i.toInt < 0 := hn
    simp [valueToJson, numberFromI64, hneg]
  | float bits =>
    have hfinite : isFiniteBits bits = true := hn
    simp only [numberFromJson, hfinite, if_true] at h
    rw [← Except.ok.inj h]
    simp [valueToJson, numberFromF64, hfinite]

theorem numberFromJson_numberFromI64 {i : ℤ} (hi : -2 ^ 63 ≤ i ∧ i < 2 ^ 63) :
    numberFromJson (numberFromI64 i) = .ok (.integer i) := by
  unfold numberFromI64
  split_ifs with hneg
  · have hcast : (Int64.ofInt i).toInt = i := Int64.toInt_ofInt_of_le (by omega) (by omega)
    simp only [numberFromJson, hcast]
  · have hcast : (UInt64.ofNat i.toNat).toNat = i.toNat := by
      rw [UInt64.toNat_ofNat']
      omega
    have hlt : i.toNat < 2 ^ 63 := by omega
    have hback : ((i.toNat : ℕ) : ℤ) = i := by omega
    simp only [numberFromJson, hcast, hlt, if_true, hback]

end Numbers

section Maps

theorem entries_insert_last {m : SortedMap String Value} {k : String} {v : Value}
    (h : ∀ p ∈ m.entries, p.1 < k) : (m.insert k v).entries = m.entries ++ [(k, v)] := by
  obtain ⟨m, hm⟩ := m
  simp only [SortedMap.insert] at h ⊢
  clear hm
  induction m with
  | nil => rfl
  | cons e m ih =>
    have hlt : e.1 < k := h e List.mem_cons_self
    have hrest := ih fun p hp => h p (List.mem_cons_of_mem _ hp)
    simp only [SortedMap.insertEntry, hlt.asymm, hlt.ne', if_false, hrest, List.cons_append]

theorem not_contains_last {m : SortedMap String Value} {k : String}
    (h : ∀ p ∈ m.entries, p.1 < k) : m.contains k = false := by
  by_contra hin
  obtain ⟨v, hv⟩ := (SortedMap.contains_iff m k).mp (Bool.not_eq_false _ ▸ hin)
  exact (h (k, v) ((SortedMap.mem_entries_iff m k v).mpr hv)).false

/-- One turn of the loop of `collect_values`. -/
def collectEntry (map : SortedMap String Value) (entry : String × Value) :
    Except String (SortedMap String Value) :=
  if !isValueKey entry.1 || map.contains entry.1 then .error invalidKeyText
  else .ok (map.insert entry.1 entry.2)

theorem collectValues_eq (entries : List (String × Value)) :
    collectValues entries = entries.foldlM collectEntry .empty := rfl

theorem collectEntry_bad {map : SortedMap String Value} {entry : String × Value}
    (h : ¬ isValueKey entry.1) : collectEntry map entry = .error invalidKeyText := by
  simp [collectEntry, h]

theorem collectEntry_new {map : SortedMap String Value} {entry : String × Value}
    (hkey : isValueKey entry.1) (hnew : map.contains entry.1 = false) :
    collectEntry map entry = .ok (map.insert entry.1 entry.2) := by
  simp [collectEntry, hkey, hnew]

/-- Entries that are in order already are collected as they are, up to the first bad key. -/
theorem collect_fold (entries : List (String × Value)) (m : SortedMap String Value)
    (hsorted : ((m.entries ++ entries).map Prod.fst).Pairwise (· < ·)) :
    ((∀ entry ∈ entries, isValueKey entry.1) → ∃ m', entries.foldlM collectEntry m = .ok m' ∧
      m'.entries = m.entries ++ entries) ∧
    ((¬ ∀ entry ∈ entries, isValueKey entry.1) →
      entries.foldlM collectEntry m = .error invalidKeyText) := by
  induction entries generalizing m with
  | nil => exact ⟨fun _ => ⟨m, rfl, (List.append_nil _).symm⟩, fun h => absurd (by simp) h⟩
  | cons entry entries ih =>
    have hlast : ∀ p ∈ m.entries, p.1 < entry.1 := by
      intro p hp
      rw [List.map_append, List.pairwise_append] at hsorted
      exact hsorted.2.2 p.1 (List.mem_map_of_mem hp) entry.1 (by simp)
    have hnew : m.contains entry.1 = false := not_contains_last hlast
    have hnext : (m.insert entry.1 entry.2).entries = m.entries ++ [entry] :=
      entries_insert_last hlast
    obtain ⟨hok, hbad⟩ := ih (m.insert entry.1 entry.2) (by simpa [hnext] using hsorted)
    by_cases hkey : isValueKey entry.1
    · rw [List.foldlM_cons, collectEntry_new hkey hnew]
      simp only [List.forall_mem_cons, hkey, true_and, bind, Except.bind]
      rw [hnext, List.append_assoc, List.singleton_append] at hok
      exact ⟨hok, hbad⟩
    · rw [List.foldlM_cons, collectEntry_bad hkey]
      exact ⟨fun hkeys => absurd (hkeys entry List.mem_cons_self) hkey, fun _ => rfl⟩

theorem collectValues_sorted {entries : List (String × Value)}
    (hsorted : (entries.map Prod.fst).Pairwise (· < ·))
    (hkeys : ∀ entry ∈ entries, isValueKey entry.1) :
    ∃ m, collectValues entries = .ok m ∧ m.entries = entries :=
  (collect_fold entries .empty hsorted).1 hkeys

theorem collectValues_ok {entries : List (String × Value)} {m : SortedMap String Value}
    (hsorted : (entries.map Prod.fst).Pairwise (· < ·)) (h : collectValues entries = .ok m) :
    m.entries = entries := by
  by_cases hkeys : ∀ entry ∈ entries, isValueKey entry.1
  · obtain ⟨m', hm', hentries⟩ := collectValues_sorted hsorted hkeys
    rw [h] at hm'
    rw [Except.ok.inj hm', hentries]
  · have hbad := (collect_fold entries .empty hsorted).2 hkeys
    rw [collectValues_eq, hbad] at h
    cases h

end Maps

section FromJson

theorem valuesFromJson_cons {value : Json} {values : List Json} {vs : List Value} :
    valuesFromJson (value :: values) = .ok vs ↔ ∃ v rest, valueFromJson value = .ok v ∧
      valuesFromJson values = .ok rest ∧ vs = v :: rest := by
  rw [valuesFromJson]
  cases valueFromJson value <;> cases valuesFromJson values <;>
    simp [bind, Except.bind, pure, Except.pure, eq_comm]

theorem entriesFromJson_cons {key : String} {value : Json} {entries : List (String × Json)}
    {vs : List (String × Value)} :
    entriesFromJson ((key, value) :: entries) = .ok vs ↔ ∃ v rest, valueFromJson value = .ok v ∧
      entriesFromJson entries = .ok rest ∧ vs = (key, v) :: rest := by
  rw [entriesFromJson]
  cases valueFromJson value <;> cases entriesFromJson entries <;>
    simp [bind, Except.bind, pure, Except.pure, eq_comm]

/-- The keys stay, whatever becomes of the values. -/
theorem keys_entriesFromJson {entries : List (String × Json)} {vs : List (String × Value)}
    (h : entriesFromJson entries = .ok vs) : vs.map Prod.fst = entries.map Prod.fst := by
  induction entries generalizing vs with
  | nil =>
    rw [← Except.ok.inj h]
    rfl
  | cons entry entries ih =>
    obtain ⟨key, value⟩ := entry
    obtain ⟨v, rest, -, hrest, rfl⟩ := entriesFromJson_cons.mp h
    simp [ih hrest]

theorem keys_entriesToJson (entries : List (String × Value)) :
    (entriesToJson entries).map Prod.fst = entries.map Prod.fst := by
  induction entries with
  | nil => rfl
  | cons entry entries ih => simp [entriesToJson, ih]

mutual
theorem valueToJson_valueFromJson : ∀ (j : Json), j.WellFormed → ∀ {v : Value},
    valueFromJson j = .ok v → valueToJson v = j
  | .null, _, v, h => by
    rw [← Except.ok.inj h]
    rfl
  | .bool b, _, v, h => by
    rw [← Except.ok.inj h]
    rfl
  | .number n, hn, v, h => numberFromI64_numberFromJson hn h
  | .string s, _, v, h => by
    rw [← Except.ok.inj h]
    rfl
  | .array values, hj, v, h => by
    rw [valueFromJson] at h
    cases hvs : valuesFromJson values with
    | error e => simp [hvs, bind, Except.bind] at h
    | ok vs =>
      rw [hvs] at h
      rw [← Except.ok.inj h, valueToJson, valuesToJson_valuesFromJson values hj hvs]
  | .object entries, hj, v, h => by
    rw [valueFromJson] at h
    cases hvs : entriesFromJson entries with
    | error e => simp [hvs, bind, Except.bind] at h
    | ok vs =>
      cases hm : collectValues vs with
      | error e => simp [hvs, hm, bind, Except.bind] at h
      | ok m =>
        have hsorted : (vs.map Prod.fst).Pairwise (· < ·) := by
          rw [keys_entriesFromJson hvs]
          exact hj.1
        simp only [hvs, hm, bind, Except.bind] at h
        rw [← Except.ok.inj h, valueToJson, collectValues_ok hsorted hm,
          entriesToJson_entriesFromJson entries hj.2 hvs]
theorem valuesToJson_valuesFromJson : ∀ (values : List Json), Json.AllWellFormed values →
    ∀ {vs : List Value}, valuesFromJson values = .ok vs → valuesToJson vs = values
  | [], _, vs, h => by
    rw [← Except.ok.inj h]
    rfl
  | value :: values, hj, vs, h => by
    obtain ⟨v, rest, hv, hrest, rfl⟩ := valuesFromJson_cons.mp h
    rw [valuesToJson, valueToJson_valueFromJson value hj.1 hv,
      valuesToJson_valuesFromJson values hj.2 hrest]
theorem entriesToJson_entriesFromJson : ∀ (entries : List (String × Json)),
    Json.EntriesWellFormed entries → ∀ {vs : List (String × Value)},
    entriesFromJson entries = .ok vs → entriesToJson vs = entries
  | [], _, vs, h => by
    rw [← Except.ok.inj h]
    rfl
  | (key, value) :: entries, hj, vs, h => by
    obtain ⟨v, rest, hv, hrest, rfl⟩ := entriesFromJson_cons.mp h
    rw [entriesToJson, valueToJson_valueFromJson value hj.1 hv,
      entriesToJson_entriesFromJson entries hj.2 hrest]
end

end FromJson

section ToJson

mutual
theorem valueFromJson_valueToJson : ∀ (v : Value), v.WellFormed → v.BytesFree →
    valueFromJson (valueToJson v) = .ok v
  | .null, _, _ => rfl
  | .bool _, _, _ => rfl
  | .integer i, hv, _ => numberFromJson_numberFromI64 hv
  | .float bits, hv, _ => by
    have hfinite : isFiniteBits bits = true := hv
    simp [valueToJson, numberFromF64, valueFromJson, numberFromJson, hfinite]
  | .string _, _, _ => rfl
  | .list values, hv, hb => by
    rw [valueToJson, valueFromJson, valuesFromJson_valuesToJson values hv hb]
    rfl
  | .map entries, hv, hb => by
    obtain ⟨hsorted, hkeys, hvalues⟩ := hv
    obtain ⟨m, hm, hentries⟩ := collectValues_sorted hsorted hkeys
    rw [valueToJson, valueFromJson, entriesFromJson_entriesToJson entries hvalues hb]
    simp only [bind, Except.bind, hm, hentries]
    rfl
theorem valuesFromJson_valuesToJson : ∀ (values : List Value), Value.AllWellFormed values →
    Value.AllBytesFree values → valuesFromJson (valuesToJson values) = .ok values
  | [], _, _ => rfl
  | value :: values, hv, hb =>
    valuesFromJson_cons.mpr ⟨value, values, valueFromJson_valueToJson value hv.1 hb.1,
      valuesFromJson_valuesToJson values hv.2 hb.2, rfl⟩
theorem entriesFromJson_entriesToJson : ∀ (entries : List (String × Value)),
    Value.EntriesWellFormed entries → Value.EntriesBytesFree entries →
    entriesFromJson (entriesToJson entries) = .ok entries
  | [], _, _ => rfl
  | (_, value) :: entries, hv, hb =>
    entriesFromJson_cons.mpr ⟨value, entries, valueFromJson_valueToJson value hv.1 hb.1,
      entriesFromJson_entriesToJson entries hv.2 hb.2, rfl⟩
end

end ToJson

/-- Both round trips between `Value` and JSON. -/
theorem values_survive_json :
    (∀ j : Json, j.WellFormed → ∀ v, valueFromJson j = .ok v → valueToJson v = j) ∧
    ∀ v : Value, v.WellFormed → v.BytesFree → valueFromJson (valueToJson v) = .ok v :=
  ⟨fun j hj _ hv => valueToJson_valueFromJson j hj hv, valueFromJson_valueToJson⟩

/-- Bytes come back as a list of integers. -/
example : valueFromJson (valueToJson (.bytes [7])) = .ok (.list [.integer 7]) := rfl

end Muxiva.Build
