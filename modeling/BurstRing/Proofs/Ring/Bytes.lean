import BurstRing.Ring.Handle
import BurstRing.Proofs.Ring.Slot

/-!
# Buffers as lists of records

A buffer of whole records is the list of its records put one after another (`recordAt_flatten`),
and nothing but its records (`eq_of_recordAt_eq`).

A handle is the number whose bytes are its record, least significant first.  `littleEndian` and
`ofLittleEndian` say this for numbers of any width by recursion on the bytes; packing handles and
reading them back agrees with it (`Handle.recordAt_pack`, `Handle.ofBytes_eq`).
-/

namespace BurstRing

/-! ### Lists of records -/

/-- The records of a buffer in order. -/
def recordsOf (width : Nat) (buffer : Array UInt8) : List (List UInt8) :=
  (List.range (buffer.size / width)).map (recordAt width buffer)

/-- A record within the buffer is a stretch of it. -/
theorem recordAt_eq_take {width i : Nat} {buffer : Array UInt8}
    (h : (i + 1) * width ≤ buffer.size) :
    recordAt width buffer i = (buffer.toList.drop (i * width)).take width := by
  rw [Nat.succ_mul] at h
  have hlen : ((buffer.toList.drop (i * width)).take width).length = width := by
    rw [List.length_take, List.length_drop, Array.length_toList]
    omega
  refine List.ext_getElem ((length_recordAt ..).trans hlen.symm) fun k hk hk' => ?_
  rw [length_recordAt] at hk
  have hlt : i * width + k < buffer.size := by omega
  simp only [recordAt]
  rw [List.getElem_map, List.getElem_range, List.getElem_take, List.getElem_drop,
    Array.getD_eq_getD_getElem?, Array.getElem?_eq_getElem hlt, Option.getD_some,
    Array.getElem_toList]

theorem drop_flatten {width : Nat} {records : List (List UInt8)} (rest : List UInt8)
    (hwidth : ∀ record ∈ records, record.length = width) (i : Nat) (hi : i ≤ records.length) :
    (records.flatten ++ rest).drop (i * width) = (records.drop i).flatten ++ rest := by
  induction records generalizing i with
  | nil =>
      obtain rfl := Nat.le_zero.mp hi
      rw [Nat.zero_mul]
      rfl
  | cons record records ih =>
      cases i with
      | zero => rw [Nat.zero_mul, List.drop_zero, List.drop_zero]
      | succ i =>
          have hrecord : record.length = width := hwidth record List.mem_cons_self
          rw [List.flatten_cons, List.append_assoc, Nat.succ_mul, Nat.add_comm, ← hrecord,
            List.drop_length_add_append, hrecord, List.drop_succ_cons]
          exact ih (fun r hr => hwidth r (List.mem_cons_of_mem _ hr)) i (Nat.le_of_succ_le_succ hi)

theorem length_flatten_of_width {width : Nat} {records : List (List UInt8)}
    (hwidth : ∀ record ∈ records, record.length = width) :
    records.flatten.length = records.length * width := by
  induction records with
  | nil => rw [List.flatten_nil, List.length_nil, List.length_nil, Nat.zero_mul]
  | cons record records ih =>
      rw [List.flatten_cons, List.length_append, hwidth record List.mem_cons_self,
        ih fun r hr => hwidth r (List.mem_cons_of_mem _ hr), List.length_cons, Nat.succ_mul,
        Nat.add_comm]

/-- The records of a list of records put one after another, with something behind them. -/
theorem recordAt_flatten {width i : Nat} {records : List (List UInt8)} (rest : List UInt8)
    (hwidth : ∀ record ∈ records, record.length = width) (hi : i < records.length) :
    recordAt width (records.flatten ++ rest).toArray i = records[i] := by
  have hrecord : records[i].length = width := hwidth _ (List.getElem_mem hi)
  rw [recordAt_eq_take, drop_flatten rest hwidth i (Nat.le_of_lt hi),
    List.drop_eq_getElem_cons hi, List.flatten_cons, List.append_assoc, ← hrecord,
    List.take_left]
  rw [List.size_toArray, List.length_append, length_flatten_of_width hwidth]
  exact (Nat.mul_le_mul_right _ hi).trans (Nat.le_add_right _ _)

/-- `out` with `front` written over its first entries. -/
def overwrite {α : Type} (front : List α) (out : Array α) : Array α :=
  (front ++ out.toList.drop front.length).toArray

theorem size_overwrite {α : Type} {front : List α} {out : Array α} (h : front.length ≤ out.size) :
    (overwrite front out).size = out.size := by
  rw [overwrite, List.size_toArray, List.length_append, List.length_drop, Array.length_toList]
  exact Nat.add_sub_cancel' h

/-- Behind the records written over its front a buffer has the records it had. -/
theorem recordAt_overwrite {width i : Nat} {records : List (List UInt8)} {buffer : Array UInt8}
    (hwidth : ∀ record ∈ records, record.length = width) (hi : records.length ≤ i)
    (hsize : (i + 1) * width ≤ buffer.size) :
    recordAt width (overwrite records.flatten buffer) i = recordAt width buffer i := by
  have hlen := length_flatten_of_width hwidth
  have hfront : records.flatten.length ≤ i * width := hlen ▸ Nat.mul_le_mul_right _ hi
  have hle : records.flatten.length ≤ buffer.size :=
    hfront.trans ((Nat.mul_le_mul_right _ (Nat.le_succ i)).trans hsize)
  rw [recordAt_eq_take hsize, recordAt_eq_take (by rwa [size_overwrite hle]), overwrite,
    List.drop_append, List.drop_drop, List.drop_eq_nil_of_le hfront, List.nil_append,
    Nat.add_sub_cancel' hfront]

/-- A byte of a buffer is one of the record it lies in. -/
theorem getD_recordAt {width : Nat} (hpos : 0 < width) (buffer : Array UInt8) (j : Nat) :
    (recordAt width buffer (j / width)).getD (j % width) 0 = buffer.getD j 0 := by
  rw [List.getD_eq_getElem?_getD, recordAt, List.getElem?_map,
    List.getElem?_range (Nat.mod_lt j hpos), Option.map_some, Option.getD_some, Nat.div_add_mod']

/-- Buffers that agree in a record agree in its bytes. -/
theorem getD_congr_of_recordAt {width j : Nat} {a b : Array UInt8} (hpos : 0 < width)
    (h : recordAt width a (j / width) = recordAt width b (j / width)) :
    a.getD j 0 = b.getD j 0 := by
  rw [← getD_recordAt hpos a, h, getD_recordAt hpos]

theorem getElem?_congr_of_getD {a b : Array UInt8} {j : Nat} (hsize : a.size = b.size)
    (h : a.getD j 0 = b.getD j 0) : a[j]? = b[j]? := by
  by_cases hj : j < a.size
  · have hj' : j < b.size := hsize ▸ hj
    rw [Array.getD, Array.getD, dif_pos hj, dif_pos hj'] at h
    rw [Array.getElem?_eq_getElem hj, Array.getElem?_eq_getElem hj']
    exact congrArg some h
  · rw [Array.getElem?_eq_none (Nat.not_lt.mp hj),
      Array.getElem?_eq_none (hsize ▸ Nat.not_lt.mp hj)]

/-- Two buffers of whole records are equal if their records are. -/
theorem eq_of_recordAt_eq {width n : Nat} {a b : Array UInt8} (hpos : 0 < width)
    (ha : a.size = n * width) (hb : b.size = n * width)
    (h : ∀ i < n, recordAt width a i = recordAt width b i) : a = b := by
  refine Array.ext (ha.trans hb.symm) fun j hj hj' => ?_
  have hi : j / width < n := Nat.div_lt_of_lt_mul (by rw [Nat.mul_comm, ← ha]; exact hj)
  have hbyte := getElem?_congr_of_getD (ha.trans hb.symm) (getD_congr_of_recordAt hpos (h _ hi))
  rwa [Array.getElem?_eq_getElem hj, Array.getElem?_eq_getElem hj', Option.some_inj] at hbyte

/-- Buffers of one size are equal if all their records are. -/
theorem eq_of_forall_recordAt_eq {width : Nat} {a b : Array UInt8} (hpos : 0 < width)
    (hsize : a.size = b.size) (h : ∀ i, recordAt width a i = recordAt width b i) : a = b := by
  refine Array.ext hsize fun j hj hj' => ?_
  have hbyte := getElem?_congr_of_getD hsize (getD_congr_of_recordAt hpos (h (j / width)))
  rwa [Array.getElem?_eq_getElem hj, Array.getElem?_eq_getElem hj', Option.some_inj] at hbyte

/-! ### Little-endian bytes -/

/-- The `width` bytes of a number, least significant first. -/
def littleEndian : (width n : Nat) → List UInt8
  | 0, _ => []
  | width + 1, n => UInt8.ofNat n :: littleEndian width (n / 256)

/-- The number with these bytes, least significant first. -/
def ofLittleEndian : List UInt8 → Nat
  | [] => 0
  | b :: bytes => b.toNat + 256 * ofLittleEndian bytes

@[simp] theorem length_littleEndian (width : Nat) :
    ∀ n, (littleEndian width n).length = width := by
  induction width with
  | zero => intro n; rfl
  | succ width ih => intro n; rw [littleEndian, List.length_cons, ih]

theorem ofLittleEndian_littleEndian (width : Nat) :
    ∀ n, ofLittleEndian (littleEndian width n) = n % 256 ^ width := by
  induction width with
  | zero => intro n; rw [Nat.pow_zero, Nat.mod_one]; rfl
  | succ width ih =>
      intro n
      have hbyte : (UInt8.ofNat n).toNat = n % 256 := UInt8.toNat_ofNat'
      rw [littleEndian, ofLittleEndian, ih, hbyte, Nat.pow_succ', Nat.mod_mul]

theorem ofLittleEndian_lt (bytes : List UInt8) : ofLittleEndian bytes < 256 ^ bytes.length := by
  induction bytes with
  | nil => exact Nat.one_pos
  | cons b bytes ih =>
      have hb := b.toNat_lt
      rw [ofLittleEndian, List.length_cons, Nat.pow_succ]
      omega

theorem littleEndian_ofLittleEndian (bytes : List UInt8) :
    littleEndian bytes.length (ofLittleEndian bytes) = bytes := by
  induction bytes with
  | nil => rfl
  | cons b bytes ih =>
      have hb := b.toNat_lt
      have hrest : (b.toNat + 256 * ofLittleEndian bytes) / 256 = ofLittleEndian bytes := by omega
      have hfirst : UInt8.ofNat (b.toNat + 256 * ofLittleEndian bytes) = b := by
        apply UInt8.toNat_inj.mp
        rw [UInt8.toNat_ofNat']
        omega
      rw [ofLittleEndian, List.length_cons, littleEndian, hrest, ih, hfirst]

theorem littleEndian_eq_map (width : Nat) :
    ∀ n, littleEndian width n = (List.range width).map fun i => UInt8.ofNat (n / 256 ^ i) := by
  induction width with
  | zero => intro n; rfl
  | succ width ih =>
      intro n
      rw [littleEndian, ih, List.range_succ_eq_map, List.map_cons, List.map_map, Nat.pow_zero,
        Nat.div_one]
      refine congrArg _ (List.map_congr_left fun i _ => ?_)
      rw [Function.comp_apply, Nat.div_div_eq_div_mul, Nat.succ_eq_add_one, Nat.pow_succ']

namespace Handle

/-- The record of a handle. -/
def record (h : UInt64) : List UInt8 := littleEndian handleSize h.toNat

/-- The handle of a record. -/
def ofRecord (bytes : List UInt8) : UInt64 := UInt64.ofNat (ofLittleEndian bytes)

@[simp] theorem ofRecord_record (h : UInt64) : ofRecord (record h) = h := by
  have hlt : h.toNat < 256 ^ handleSize := h.toNat_lt
  rw [ofRecord, record, ofLittleEndian_littleEndian, Nat.mod_eq_of_lt hlt, UInt64.ofNat_toNat]

theorem record_ofRecord {bytes : List UInt8} (h : bytes.length = handleSize) :
    record (ofRecord bytes) = bytes := by
  have hlt : ofLittleEndian bytes < 2 ^ 64 := by
    have hlt := ofLittleEndian_lt bytes
    rwa [h] at hlt
  rw [record, ofRecord, UInt64.toNat_ofNat', Nat.mod_eq_of_lt hlt, ← h,
    littleEndian_ofLittleEndian]

theorem bytes_eq (h : UInt64) : bytes h = record h := by
  rw [bytes, record, littleEndian_eq_map]
  refine List.map_congr_left fun i hi => ?_
  rw [List.mem_range, handleSize] at hi
  have hshift : (8 * i).toUInt64.toNat = 8 * i := UInt64.toNat_ofNat_of_lt' (by
    rw [UInt64.size]
    omega)
  apply UInt8.toNat_inj.mp
  have hmod : 8 * i % 64 = 8 * i := Nat.mod_eq_of_lt (by omega)
  rw [byte, UInt64.toNat_toUInt8, UInt64.toNat_shiftRight, hshift, hmod,
    Nat.shiftRight_eq_div_pow, Nat.pow_mul, UInt8.toNat_ofNat']

/-- Reading one more byte in front. -/
theorem shift_or_byte (n : Nat) (b : UInt8) :
    (UInt64.ofNat n <<< 8) ||| b.toUInt64 = UInt64.ofNat (b.toNat + 256 * n) := by
  have hb := b.toNat_lt
  apply UInt64.toNat_inj.mp
  rw [UInt64.toNat_or, UInt64.toNat_shiftLeft, UInt64.toNat_ofNat', UInt64.toNat_ofNat',
    UInt8.toNat_toUInt64, Nat.shiftLeft_eq]
  have hhigh : n % 2 ^ 64 * 2 ^ ((8 : UInt64).toNat % 64) % 2 ^ 64 = 2 ^ 8 * (n % 2 ^ 56) := by
    rw [show (8 : UInt64).toNat % 64 = 8 from rfl]
    omega
  rw [hhigh, ← Nat.two_pow_add_eq_or_of_lt hb]
  omega

theorem ofBytes_eq (buffer : Array UInt8) (i : Nat) :
    ofBytes buffer (i * handleSize) = ofRecord (recordAt handleSize buffer i) := by
  have hfold : ∀ bytes : List UInt8,
      bytes.foldr (fun b (h : UInt64) => (h <<< 8) ||| b.toUInt64) 0 = ofRecord bytes := by
    intro bytes
    induction bytes with
    | nil => rfl
    | cons b bytes ih => rw [List.foldr_cons, ih, ofRecord, shift_or_byte, ofRecord, ofLittleEndian]
  rw [← hfold, recordAt, List.foldr_map]
  rfl

theorem pack_eq (handles : Array UInt64) :
    pack handles = (handles.toList.map record).flatten.toArray := by
  have hfold : ∀ (hs : List UInt64) (out : Array UInt8),
      hs.foldl (fun out h => (bytes h).foldl Array.push out) out =
        out ++ (hs.map record).flatten.toArray := by
    intro hs
    induction hs with
    | nil => intro out; rw [List.foldl_nil, List.map_nil, List.flatten_nil, Array.append_empty]
    | cons h hs ih =>
        intro out
        rw [List.foldl_cons, ih, List.foldl_push_eq_append', bytes_eq, List.map_cons,
          List.flatten_cons, Array.append_assoc, List.append_toArray (record h)]
  rw [pack, ← Array.foldl_toList, hfold, Array.empty_append]

theorem length_of_mem_map_record {handles : List UInt64} :
    ∀ r ∈ handles.map record, r.length = handleSize := by
  intro r hr
  obtain ⟨h, -, rfl⟩ := List.mem_map.mp hr
  exact length_littleEndian ..

theorem size_pack (handles : Array UInt64) : (pack handles).size = handles.size * handleSize := by
  rw [pack_eq, List.size_toArray, length_flatten_of_width length_of_mem_map_record, List.length_map,
    Array.length_toList]

theorem recordAt_pack (handles : Array UInt64) {i : Nat} (hi : i < handles.size) :
    recordAt handleSize (pack handles) i = record handles[i] := by
  have hlen : i < (handles.toList.map record).length := by
    rwa [List.length_map, Array.length_toList]
  have h := recordAt_flatten [] length_of_mem_map_record hlen
  rw [List.append_nil, ← pack_eq] at h
  rw [h, List.getElem_map, Array.getElem_toList]

/-- The bytes of the handles of a buffer are those of the buffer. -/
theorem pack_unpack {buffer : Array UInt8} {n : Nat} (h : buffer.size = n * handleSize) :
    pack (unpack buffer n) = buffer := by
  have hsize : (unpack buffer n).size = n := by rw [unpack, Array.size_map, Array.size_range]
  refine eq_of_recordAt_eq (by decide) (by rw [size_pack, hsize]) h fun i hi => ?_
  rw [recordAt_pack _ (hsize.symm ▸ hi)]
  simp only [unpack, Array.getElem_map, Array.getElem_range]
  rw [ofBytes_eq, record_ofRecord (length_recordAt ..)]

/-- Handles written over the front of others, as records and as handles. -/
theorem unpack_overwrite {records : List (List UInt8)} {out : Array UInt64}
    (hwidth : ∀ r ∈ records, r.length = handleSize) (hle : records.length ≤ out.size) :
    unpack (overwrite records.flatten (pack out)) out.size =
      overwrite (records.map ofRecord) out := by
  have hsize : (overwrite (records.map ofRecord) out).size = out.size :=
    size_overwrite (by rwa [List.length_map])
  refine Array.ext (by rw [unpack, Array.size_map, Array.size_range, hsize]) fun i hi hi' => ?_
  rw [hsize] at hi'
  simp only [unpack, Array.getElem_map, Array.getElem_range, overwrite, List.getElem_toArray]
  rw [ofBytes_eq]
  by_cases hfront : i < records.length
  · rw [recordAt_flatten _ hwidth hfront, List.getElem_append_left (by rwa [List.length_map]),
      List.getElem_map]
  · have hfit : (i + 1) * handleSize ≤ (pack out).size := by
      rw [size_pack]
      exact Nat.mul_le_mul_right _ hi'
    have hold := recordAt_overwrite hwidth (Nat.not_lt.mp hfront) hfit
    rw [overwrite] at hold
    rw [hold, recordAt_pack out hi', ofRecord_record,
      List.getElem_append_right (by rwa [List.length_map, ← Nat.not_lt])]
    simp only [List.getElem_drop, List.length_map, Array.getElem_toList,
      Nat.add_sub_cancel' (Nat.not_lt.mp hfront)]

end Handle

end BurstRing
