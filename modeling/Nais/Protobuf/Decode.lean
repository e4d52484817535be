import Nais.Protobuf.Parse
import Nais.Protobuf.Tables

/-!
# Unpacking computes the meaning

`protobuf_c_message_unpack` returns the message that the bytes mean and rejects all others, as
long as no length and its prefix overflow a word and the allocator has memory. It leaves neither
the packed bytes nor the arrays that it allocates.
-/

namespace Nais.Protobuf
open Board Lib Lib.Base128 Lib.Wire Lib.Refine

variable {desc : MessageDescriptor} {alloc : Nat → Bool} {data : List UInt8} {r : Record}
  {rs : List Record} {msg msg' : Message desc}

/-- What a record does to a message. -/
def absorbRecord (msg : Message desc) (r : Record) : Option (Message desc) :=
  match fieldKey desc r with
  | none => some { msg with
      unknownFields := msg.unknownFields ++ [⟨UInt32.ofNat r.tag, UInt8.ofNat r.wire, r.raw⟩] }
  | some f => (absorb (desc.field f) r (desc.field f).label (msg.members f)).map fun v =>
      { msg with members := Function.update msg.members f v }

section Means

variable {f : FieldDescriptor}

lemma foldlM_absorb_required (rs : List Record) (v : Cell f.type) :
    rs.foldlM (fun v r => absorb f r .required v) v =
      (rs.mapM fun r => cellOf r f.type).map fun vs => vs.getLast?.getD v := by
  have hfold := Route.foldlM_map_eq (fun r => cellOf r f.type) (fun _ w => w) rs v
  simp only [Option.map_id'] at hfold
  have hlast : ∀ vs : List (Cell f.type), vs.foldl (fun _ w => w) v = vs.getLast?.getD v := by
    intro vs
    induction vs using List.reverseRecOn with
    | nil => rfl
    | append_singleton vs w _ => simp
  simp only [hlast] at hfold
  exact hfold

lemma foldlM_absorb_optional (rs : List Record) (v : Bool × Cell f.type) :
    rs.foldlM (fun v r => absorb f r .optional v) v =
      (rs.mapM fun r => cellOf r f.type).map fun vs =>
        (v.1 || !vs.isEmpty, vs.getLast?.getD v.2) := by
  have hfold := Route.foldlM_map_eq (fun r => cellOf r f.type) (fun _ w => (true, w)) rs v
  have hlast : ∀ vs : List (Cell f.type), vs.foldl (fun (_ : Bool × Cell f.type) w => (true, w)) v =
      (v.1 || !vs.isEmpty, vs.getLast?.getD v.2) := by
    intro vs
    induction vs using List.reverseRecOn with
    | nil => simp
    | append_singleton vs w _ => simp
  simp only [hlast] at hfold
  exact hfold

lemma foldlM_absorb_repeated (rs : List Record) (vs : List (Cell f.type)) :
    rs.foldlM (fun v r => absorb f r .repeated v) vs =
      (rs.mapM fun r => elementsOf f r).map fun wss => vs ++ wss.flatten := by
  have hfold := Route.foldlM_map_eq (fun r => elementsOf f r) (fun vs ws => vs ++ ws) rs vs
  have hflat : ∀ (wss : List (List (Cell f.type))) vs,
      wss.foldl (fun vs ws => vs ++ ws) vs = vs ++ wss.flatten := by
    intro wss
    induction wss with
    | nil => simp
    | cons ws wss ih => simp [ih]
  simp only [hflat] at hfold
  exact hfold

/-- A required field is there or has a default. -/
def Present (f : FieldDescriptor) (rs : List Record) : Prop :=
  f.label = .required → f.defaultValue.isSome ∨ rs ≠ []

/-- Taking in the records of a field one by one gives its value. -/
lemma foldlM_absorb_eq (hpresent : Present f rs) :
    rs.foldlM (fun v r => absorb f r f.label v) f.init = valueOf f rs f.label := by
  unfold FieldDescriptor.init Present at *
  generalize hl : f.label = l at hpresent ⊢
  cases l with
  | required =>
    rw [foldlM_absorb_required, valueOf]
    cases hvs : rs.mapM fun r => cellOf r f.type with
    | none => rfl
    | some vs =>
      have hlen := Route.mapM_length hvs
      rw [Option.map_some, Option.bind_some]
      cases hlast : vs.getLast? with
      | some v => rfl
      | none =>
        have hnil : rs = [] := by
          rw [List.getLast?_eq_none_iff] at hlast
          rw [hlast] at hlen
          exact List.length_eq_zero_iff.mp hlen.symm
        obtain hdefault | hne := hpresent rfl
        · obtain ⟨d, hd⟩ := Option.isSome_iff_exists.mp hdefault
          simp [FieldDescriptor.default, hd]
        · exact absurd hnil hne
  | optional =>
    rw [foldlM_absorb_optional, valueOf]
    rfl
  | «repeated» =>
    rw [foldlM_absorb_repeated, valueOf]
    rfl

lemma present_of_valueOf {v : Member f.label f.type} (h : valueOf f rs f.label = some v) :
    Present f rs := by
  unfold Present
  intro hreq
  by_contra hno
  rw [not_or, ne_eq, not_not, Option.not_isSome_iff_eq_none] at hno
  obtain ⟨hdefault, hnil⟩ := hno
  have hnone : ∀ l, l = Label.required → valueOf f rs l = none := by
    rintro l rfl
    simp [valueOf, hnil, hdefault]
  rw [hnone f.label hreq] at h
  cases h

end Means

lemma unknownRecords_cons (r : Record) (rs : List Record) :
    unknownRecords desc (r :: rs) =
      if fieldKey desc r = none then
        ⟨UInt32.ofNat r.tag, UInt8.ofNat r.wire, r.raw⟩ :: unknownRecords desc rs
      else unknownRecords desc rs := by
  by_cases h : fieldKey desc r = none
  · simp [unknownRecords, h]
  · simp [unknownRecords, h]

/-- Taking in records one by one sorts them by field. -/
lemma foldlM_absorbRecord_iff (rs : List Record) :
    rs.foldlM absorbRecord msg = some msg' ↔
      (∀ f, (Route.itemsOf (fieldKey desc) f rs).foldlM
        (fun v r => absorb (desc.field f) r (desc.field f).label v) (msg.members f) =
          some (msg'.members f)) ∧
      msg'.unknownFields = msg.unknownFields ++ unknownRecords desc rs := by
  rw [← Route.foldlM_route_iff (fieldKey desc)
    (fun f r v => absorb (desc.field f) r (desc.field f).label v)]
  induction rs generalizing msg with
  | nil =>
    simp only [List.foldlM_nil, Option.pure_def, Option.some.injEq, unknownRecords, List.filter_nil,
      List.map_nil, List.append_nil, Message.ext_iff]
    tauto
  | cons r rs ih =>
    rw [List.foldlM_cons, List.foldlM_cons, unknownRecords_cons, Option.bind_eq_bind,
      Option.bind_eq_bind, absorbRecord, Route.route]
    cases hkey : fieldKey desc r with
    | none =>
      rw [Option.bind_some, Option.bind_some, ih, if_pos rfl]
      simp
    | some f =>
      rw [if_neg (Option.some_ne_none f)]
      dsimp only
      cases hv : absorb (desc.field f) r (desc.field f).label (msg.members f) with
      | none => simp only [Option.map_none, Option.bind_none, reduceCtorEq, false_and]
      | some v =>
        rw [Option.map_some, Option.map_some, Option.bind_some, Option.bind_some, ih]

/-- The message that a stream of records means is the initial one with all records taken in. -/
lemma means_iff : Means desc rs msg ↔
    (∀ f, Present (desc.field f) (Route.itemsOf (fieldKey desc) f rs)) ∧
      rs.foldlM absorbRecord (messageInit desc) = some msg := by
  rw [foldlM_absorbRecord_iff]
  constructor
  · intro h
    refine ⟨fun f => present_of_valueOf (h.member f), fun f => ?_, h.unknown⟩
    rw [messageInit, foldlM_absorb_eq (present_of_valueOf (h.member f)), h.member f]
  · rintro ⟨hpresent, hfold, hunknown⟩
    refine ⟨fun f => ?_, hunknown⟩
    rw [← foldlM_absorb_eq (hpresent f)]
    exact hfold f

/-- Bytes mean at most one message. -/
lemma Decodes.unique (h : Decodes desc data msg) (h' : Decodes desc data msg') : msg = msg' := by
  obtain ⟨rs, hcut, hmeans⟩ := h
  obtain ⟨rs', hcut', hmeans'⟩ := h'
  rw [hcut] at hcut'
  cases hcut'
  have hfold := (means_iff.mp hmeans).2
  rw [(means_iff.mp hmeans').2] at hfold
  exact (Option.some.inj hfold).symm

/-- The arrays have room for the records that are left. -/
structure Roomy (room : desc.Index → Nat) (unknownRoom : Nat) (msg : Message desc)
    (rs : List Record) : Prop where
  array : ∀ f, (desc.field f).label = .repeated → ∃ ns,
    (Route.itemsOf (fieldKey desc) f rs).mapM (recordCount (desc.field f)) = some ns ∧
      arraySize (desc.field f).label (msg.members f) + ns.sum ≤ room f
  unknown : msg.unknownFields.length + (unknownRecords desc rs).length ≤ unknownRoom

variable {m : ScannedMember desc} {room : desc.Index → Nat} {unknownRoom : Nat}

lemma itemsOf_cons (f : desc.Index) (r : Record) (rs : List Record) :
    Route.itemsOf (fieldKey desc) f (r :: rs) =
      if fieldKey desc r = some f then r :: Route.itemsOf (fieldKey desc) f rs
      else Route.itemsOf (fieldKey desc) f rs := by
  by_cases h : fieldKey desc r = some f
  · simp [Route.itemsOf, h]
  · simp [Route.itemsOf, h]

/-- The count of the next record, and room for it. -/
lemma Roomy.next {f : desc.Index} (h : Roomy room unknownRoom msg (r :: rs))
    (hkey : fieldKey desc r = some f) (hrep : (desc.field f).label = .repeated) :
    ∃ n ns, recordCount (desc.field f) r = some n ∧
      (Route.itemsOf (fieldKey desc) f rs).mapM (recordCount (desc.field f)) = some ns ∧
      arraySize (desc.field f).label (msg.members f) + n + ns.sum ≤ room f := by
  obtain ⟨ns, hns, hle⟩ := h.array f hrep
  rw [itemsOf_cons, if_pos hkey, List.mapM_cons, Option.bind_eq_bind, Option.bind_eq_some_iff] at hns
  obtain ⟨n, hn, hns⟩ := hns
  rw [Option.bind_eq_bind, Option.bind_eq_some_iff] at hns
  obtain ⟨ns', hns', hns⟩ := hns
  cases hns
  refine ⟨n, ns', hn, hns', ?_⟩
  rw [List.sum_cons] at hle
  omega

lemma parseMember_refines (hm : m.Of r) (hroom : Roomy room unknownRoom msg (r :: rs)) :
    Refines .rejected (Enough alloc) (parseMember alloc room unknownRoom msg m)
      (absorbRecord msg r) := by
  unfold parseMember absorbRecord
  rw [hm.field]
  cases hkey : fieldKey desc r with
  | none =>
    have hload : loadRange m.data 0 m.len.toNat = .ok r.raw := by
      have hle := hm.length_le
      rw [loadRange, hm.len, if_pos (by omega), List.drop_zero, hm.raw]
    have hlt : msg.unknownFields.length < unknownRoom := by
      have hunknown := hroom.unknown
      rw [unknownRecords_cons, if_pos hkey, List.length_cons] at hunknown
      omega
    have hstore : Refines .rejected (Enough alloc) (doAlloc alloc m.len.toNat >>= fun _ =>
        fetch (loadRange m.data 0 m.len.toNat) >>= fun data =>
          putElement unknownRoom msg.unknownFields ⟨m.tag, m.wireType, data⟩ >>= fun unknownFields =>
            .ok { msg with unknownFields := unknownFields })
        ((some ()).bind fun _ => some { msg with
          unknownFields := msg.unknownFields ++ [⟨UInt32.ofNat r.tag, UInt8.ofNat r.wire, r.raw⟩] }) := by
      refine (refines_doAlloc _ _).bind fun _ _ => ?_
      rw [hload, hm.tag, hm.wire]
      simp only [fetch, Except.mapError, Bind.bind, Except.bind, putElement_eq _ hlt]
      rfl
    exact hstore
  | some f =>
    apply Refines.bind_map _ fun _ _ => rfl
    apply parseField_refines hm
    intro hrep
    obtain ⟨n, ns, hn, -, hle⟩ := hroom.next hkey hrep
    exact ⟨n, hn, by omega⟩

lemma absorb_size {f : FieldDescriptor} {l : Label} {v v' : Member l f.type} (hrep : l = .repeated)
    (h : absorb f r l v = some v') {n : Nat} (hn : recordCount f r = some n) :
    arraySize l v' = arraySize l v + n := by
  subst hrep
  obtain ⟨ws, hws, rfl⟩ := Option.map_eq_some_iff.mp h
  rw [elementsOf_length hws, Option.some.injEq] at hn
  rw [arraySize, arraySize, List.length_append, hn]

/-- What was not used stays for the records behind. -/
lemma Roomy.tail (hroom : Roomy room unknownRoom msg (r :: rs)) (h : absorbRecord msg r = some msg') :
    Roomy room unknownRoom msg' rs := by
  unfold absorbRecord at h
  cases hkey : fieldKey desc r with
  | none =>
    rw [hkey] at h
    cases h
    constructor
    · intro f hrep
      obtain ⟨ns, hns, hle⟩ := hroom.array f hrep
      rw [itemsOf_cons, if_neg (by simp [hkey])] at hns
      exact ⟨ns, hns, hle⟩
    · have hunknown := hroom.unknown
      rw [unknownRecords_cons, if_pos hkey, List.length_cons] at hunknown
      dsimp only
      rw [List.length_append, List.length_singleton]
      omega
  | some f =>
    rw [hkey] at h
    obtain ⟨v, hv, rfl⟩ := Option.map_eq_some_iff.mp h
    constructor
    · intro g hrep
      dsimp only
      by_cases hg : g = f
      · subst hg
        obtain ⟨n, ns, hn, hns, hle⟩ := hroom.next hkey hrep
        refine ⟨ns, hns, ?_⟩
        rw [Function.update_self, absorb_size hrep hv hn]
        exact hle
      · obtain ⟨ns, hns, hle⟩ := hroom.array g hrep
        rw [itemsOf_cons, if_neg (by rw [hkey, Option.some.injEq]; exact fun h => hg h.symm)] at hns
        rw [Function.update_of_ne hg]
        exact ⟨ns, hns, hle⟩
    · have hunknown := hroom.unknown
      rw [unknownRecords_cons, if_neg (by simp [hkey])] at hunknown
      exact hunknown

variable (alloc) in
/-- The second pass takes in the records one by one. -/
lemma parse_refines {ms : List (ScannedMember desc)} (hms : List.Forall₂ ScannedMember.Of ms rs)
    (hroom : Roomy room unknownRoom msg rs) :
    Refines .rejected (Enough alloc) (ms.foldlM (parseMember alloc room unknownRoom) msg)
      (rs.foldlM absorbRecord msg) := by
  induction hms generalizing msg with
  | nil => rfl
  | cons hm _ ih =>
    rw [List.foldlM_cons, List.foldlM_cons]
    exact (parseMember_refines hm hroom).bind fun msg' h => ih (hroom.tail h)

section Room

/-- An element takes at least one byte. -/
lemma recordCount_le {f : FieldDescriptor} {n : Nat} (hpos : 0 < r.raw.length)
    (h : recordCount f r = some n) : n ≤ r.raw.length := by
  have hpay : r.payload.length ≤ r.raw.length := List.drop_sublist _ _ |>.length_le
  unfold recordCount at h
  split at h
  · cases ht : f.type <;> rw [ht, payloadCount] at h
    case string => cases h
    case bool =>
      cases h
      exact hpay
    case sfixed32 | fixed32 | float =>
      split at h
      · cases h
        omega
      · cases h
    case int32 | enum | uint32 | sint32 =>
      cases h
      exact List.countP_le_length.trans hpay
  · cases h
    exact hpos

lemma raw_pos_of_forall₂ {ms : List (ScannedMember desc)}
    (hms : List.Forall₂ ScannedMember.Of ms rs) : ∀ r ∈ rs, 0 < r.raw.length := by
  induction hms with
  | nil => simp
  | cons hm _ ih => exact List.forall_mem_cons.mpr ⟨hm.pos, ih⟩

variable {s : Scan desc}

/-- The block of a repeated field has room for all elements that were counted. -/
lemma Scanned.room_eq (hs : Scanned s rs) (hsmall : (rs.map fun r => r.raw.length).sum < 2 ^ 30)
    {f : desc.Index} (hrep : (desc.field f).label = .repeated) :
    ∃ ns, (Route.itemsOf (fieldKey desc) f rs).mapM (recordCount (desc.field f)) = some ns ∧
      s.room f = ns.sum := by
  obtain ⟨ns, hns, hcount⟩ := hs.counts f hrep
  refine ⟨ns, hns, ?_⟩
  have hpos := raw_pos_of_forall₂ hs.members
  have hsub : (Route.itemsOf (fieldKey desc) f rs).Sublist rs := List.filter_sublist
  have hitems := Route.sum_mapM_le hns fun r hr n hn => recordCount_le (hpos r (hsub.mem hr)) hn
  have htotal := (hsub.map fun r => r.raw.length).sum_le_sum (fun _ _ => Nat.zero_le _)
  have hfour : sizeofEltInRepeatedArray (desc.field f).type = 4 := by
    cases (desc.field f).type <;> rfl
  rw [Scan.room, hcount, hfour, UInt32.toNat_mul, UInt32.toNat_ofNat',
    Nat.mod_eq_of_lt (by omega : ns.sum < 2 ^ 32)]
  simp only [UInt32.toNat_ofNat]
  rw [Nat.mod_eq_of_lt (by omega), Nat.mul_div_cancel_left _ (by omega)]

lemma Scanned.roomy (hs : Scanned s rs) (hsmall : (rs.map fun r => r.raw.length).sum < 2 ^ 30) :
    Roomy s.room s.nUnknown (messageInit desc) rs := by
  constructor
  · intro f hrep
    obtain ⟨ns, hns, hroom⟩ := hs.room_eq hsmall hrep
    refine ⟨ns, hns, ?_⟩
    have hzero : arraySize (desc.field f).label ((messageInit desc).members f) = 0 := by
      unfold messageInit FieldDescriptor.init
      dsimp only
      cases (desc.field f).label <;> rfl
    omega
  · rw [hs.nUnknown]
    exact (Nat.zero_add _).le

variable (alloc) in
lemma allocateField_spec (hs : Scanned s rs) (f : desc.Index) :
    match allocateField alloc s f with
    | .ok _ => Present (desc.field f) (Route.itemsOf (fieldKey desc) f rs)
    | .error e => e = .rejected ∧
      (Enough alloc → ¬Present (desc.field f) (Route.itemsOf (fieldKey desc) f rs)) := by
  unfold allocateField Present
  cases hl : (desc.field f).label with
  | required =>
    have hbit := hs.required f hl
    dsimp only
    by_cases hmissing : (desc.field f).defaultValue.isNone ∧ s.required f = false
    · rw [if_pos hmissing]
      refine ⟨rfl, fun _ h => ?_⟩
      obtain hdefault | hrec := h rfl
      · rw [Option.isSome_iff_ne_none] at hdefault
        exact hdefault (Option.isNone_iff_eq_none.mp hmissing.1)
      · rw [hbit.mpr hrec] at hmissing
        exact absurd hmissing.2 (by decide)
    · rw [if_neg hmissing]
      intro _
      rw [Option.isNone_iff_eq_none, not_and, Bool.not_eq_false] at hmissing
      by_cases hdefault : (desc.field f).defaultValue = none
      · exact .inr (hbit.mp (hmissing hdefault))
      · exact .inl (Option.isSome_iff_ne_none.mpr hdefault)
  | optional => simp
  | «repeated» =>
    dsimp only
    by_cases hn : s.counts f ≠ 0
    · rw [if_pos hn]
      unfold doAlloc
      by_cases halloc : alloc (sizeofEltInRepeatedArray (desc.field f).type * s.counts f).toNat = true
      · rw [if_pos halloc]
        simp
      · rw [if_neg halloc]
        exact ⟨rfl, fun henough => absurd (henough _) halloc⟩
    · rw [if_neg hn]
      simp

variable (alloc) in
/-- The loop over the fields finds out whether all required ones are there. -/
lemma allocateFields_spec (hs : Scanned s rs) (fs : List desc.Index) :
    match fs.forM (allocateField alloc s) with
    | .ok _ => ∀ f ∈ fs, Present (desc.field f) (Route.itemsOf (fieldKey desc) f rs)
    | .error e => e = .rejected ∧
      (Enough alloc → ∃ f ∈ fs, ¬Present (desc.field f) (Route.itemsOf (fieldKey desc) f rs)) := by
  induction fs with
  | nil =>
    change ∀ f ∈ [], _
    simp
  | cons f fs ih =>
    have hf := allocateField_spec alloc hs f
    rw [List.forM_eq_forM, List.forM_cons]
    cases hone : allocateField alloc s f with
    | error e =>
      rw [hone] at hf
      exact ⟨hf.1, fun henough => ⟨f, List.mem_cons_self, hf.2 henough⟩⟩
    | ok u =>
      rw [hone] at hf
      simp only [Bind.bind, Except.bind]
      rw [List.forM_eq_forM] at ih
      cases hrest : forM fs (allocateField alloc s) with
      | error e =>
        rw [hrest] at ih
        refine ⟨ih.1, fun henough => ?_⟩
        obtain ⟨g, hg, hno⟩ := ih.2 henough
        exact ⟨g, List.mem_cons_of_mem _ hg, hno⟩
      | ok u =>
        rw [hrest] at ih
        exact List.forall_mem_cons.mpr ⟨hf, ih⟩

end Room

/-- A record that cannot be counted has no meaning in its field. -/
lemma not_means_of_uncountable (hr : r ∈ rs) (h : Uncountable desc r) : ¬Means desc rs msg := by
  intro hmeans
  obtain ⟨f, hkey, hrep, hcount⟩ := h
  have hmember := hmeans.member f
  have hnone : ∀ l, l = Label.repeated →
      valueOf (desc.field f) (Route.itemsOf (fieldKey desc) f rs) l = none := by
    rintro l rfl
    rw [valueOf, Option.map_eq_none_iff]
    cases hmap : (Route.itemsOf (fieldKey desc) f rs).mapM fun r => elementsOf (desc.field f) r with
    | none => rfl
    | some vss =>
      have hmem : r ∈ Route.itemsOf (fieldKey desc) f rs := by simp [Route.itemsOf, hr, hkey]
      obtain ⟨vs, hvs⟩ := Route.exists_of_mapM hmap hmem
      rw [elementsOf_length hvs] at hcount
      cases hcount
  rw [hnone _ hrep] at hmember
  cases hmember

lemma doAlloc_error {size : Nat} {e : Stop} (h : doAlloc alloc size = .error e) :
    e = .rejected ∧ ¬Enough alloc := by
  have hr := refines_doAlloc alloc size
  rw [h] at hr
  exact ⟨hr.1, fun henough => Option.some_ne_none _ (hr.2 henough)⟩

lemma doAllocIf_error {needed : Bool} {size : Nat} {e : Stop}
    (h : doAllocIf alloc needed size = .error e) : e = .rejected ∧ ¬Enough alloc := by
  unfold doAllocIf at h
  split at h
  · exact doAlloc_error h
  · cases h

variable (alloc) in
/-- How unpacking ends. -/
lemma unpack_outcome (desc : MessageDescriptor) (hlen : data.length + 16 ≤ 2 ^ 27)
    (hlong : cut data ≠ .error .overlong) :
    match protobufCMessageUnpack alloc desc data with
    | .ok msg => Decodes desc data msg
    | .error e => e = .rejected ∧ (Enough alloc → ∀ msg, ¬Decodes desc data msg) := by
  -- a missing block ends the unpacking
  have halloc : ∀ {e}, e = Stop.rejected ∧ ¬Enough alloc →
      e = .rejected ∧ (Enough alloc → ∀ msg, ¬Decodes desc data msg) :=
    fun h => ⟨h.1, fun henough => absurd henough h.2⟩
  unfold protobufCMessageUnpack
  cases hmsg : doAlloc alloc desc.sizeofMessage with
  | error e => exact halloc (doAlloc_error hmsg)
  | ok _ =>
    simp only [Bind.bind, Except.bind]
    cases hbitmap : doAllocIf alloc (16 < (desc.fields.length + 7) / 8)
        ((desc.fields.length + 7) / 8) with
    | error e => exact halloc (doAllocIf_error hbitmap)
    | ok _ =>
      have hscan := scanLoop_spec alloc (@scanned_init desc) (by
        rw [List.length_nil]
        omega : ([] : List Record).length + 16 + data.length ≤ 2 ^ 27) hlong
      dsimp only
      cases hs : scanLoop alloc (Scan.init desc) data with
      | error e =>
        rw [hs] at hscan
        refine ⟨hscan.1, fun henough msg hdec => ?_⟩
        obtain ⟨rs, hcut, hmeans⟩ := hdec
        obtain ⟨r, hr, hun⟩ := hscan.2 henough rs hcut
        exact not_means_of_uncountable hr hun hmeans
      | ok s =>
        rw [hs] at hscan
        obtain ⟨rs, hcut, hscanned⟩ := hscan
        rw [List.nil_append] at hscanned
        have hsmall := cut_length_le hcut
        have hfields := allocateFields_spec alloc hscanned
          (List.finRange desc.fields.length)
        have hmeans : ∀ msg, Decodes desc data msg ↔ Means desc rs msg := by
          intro msg
          constructor
          · rintro ⟨rs', hcut', h⟩
            rw [hcut] at hcut'
            cases hcut'
            exact h
          · exact fun h => ⟨rs, hcut, h⟩
        dsimp only
        cases hforM : (List.finRange desc.fields.length).forM (allocateField alloc s) with
        | error e =>
          rw [hforM] at hfields
          refine ⟨hfields.1, fun henough msg hdec => ?_⟩
          obtain ⟨f, -, hno⟩ := hfields.2 henough
          exact hno ((means_iff.mp ((hmeans msg).mp hdec)).1 f)
        | ok _ =>
          rw [hforM] at hfields
          dsimp only
          cases hunknown : doAllocIf alloc (s.nUnknown ≠ 0) (s.nUnknown * sizeofUnknownField) with
          | error e => exact halloc (doAllocIf_error hunknown)
          | ok _ =>
            have hpresent : ∀ f, Present (desc.field f) (Route.itemsOf (fieldKey desc) f rs) :=
              fun f => hfields f (List.mem_finRange f)
            have hparse := parse_refines alloc hscanned.members
              (hscanned.roomy (by omega))
            dsimp only
            cases hfold : s.members.foldlM (parseMember alloc s.room s.nUnknown) (messageInit desc) with
            | error e =>
              rw [hfold] at hparse
              refine ⟨hparse.1, fun henough msg hdec => ?_⟩
              have habsorb := (means_iff.mp ((hmeans msg).mp hdec)).2
              rw [hparse.2 henough] at habsorb
              cases habsorb
            | ok msg =>
              rw [hfold] at hparse
              exact (hmeans msg).mpr (means_iff.mpr ⟨hpresent, hparse⟩)

/-- Where no length overflows, the library returns the message that the bytes mean and no other. It
rejects the rest, and reads and writes nothing that it should not. -/
theorem unpack_iff_decodes (desc : MessageDescriptor) (hlen : data.length + 16 ≤ 2 ^ 27)
    (hlong : cut data ≠ .error .overlong) :
    (∀ msg, protobufCMessageUnpack alloc desc data = .ok msg → Decodes desc data msg) ∧
      (∀ e, protobufCMessageUnpack alloc desc data = .error e → e = .rejected) ∧
      (Enough alloc → ∀ msg, Decodes desc data msg →
        protobufCMessageUnpack alloc desc data = .ok msg) := by
  have hout := unpack_outcome alloc desc hlen hlong
  cases hu : protobufCMessageUnpack alloc desc data with
  | error e =>
    rw [hu] at hout
    refine ⟨fun _ h => ?_, fun _ h => ?_, fun henough msg hdec => absurd hdec (hout.2 henough msg)⟩
    · cases h
    · cases h
      exact hout.1
  | ok msg =>
    rw [hu] at hout
    refine ⟨fun _ h => ?_, fun _ h => ?_, fun _ msg' hdec => ?_⟩
    · cases h
      exact hout
    · cases h
    · rw [Decodes.unique hdec hout]

/-- A command, written in a way of its own: an element of `ivals` alone and two packed, the number
of the command with one byte too many, and a field of a later version. -/
def scatteredCommand : List UInt8 :=
  [0x20, 7, 0x7A, 1, 0x61, 8, 0x85, 0, 0x1A, 2, 0x61, 0x62, 0x22, 2, 5, 6]

def scatteredCommandStruct : Message commandDescriptor where
  members
    | ⟨0, _⟩ => (5 : Int32)
    | ⟨1, _⟩ => (false, (0 : Int32))
    | ⟨2, _⟩ => [[0x61, 0x62]]
    | ⟨3, _⟩ => ([7, 5, 6] : List Int32)
  unknownFields := [⟨15, 2, [1, 0x61]⟩]

lemma decodes_scatteredCommand : Decodes commandDescriptor scatteredCommand scatteredCommandStruct := by
  refine ⟨[⟨4, 0, 0, [7]⟩, ⟨15, 2, 1, [1, 0x61]⟩, ⟨1, 0, 0, [0x85, 0]⟩, ⟨3, 2, 1, [2, 0x61, 0x62]⟩,
    ⟨4, 2, 1, [2, 5, 6]⟩], ?_, ?_, ?_⟩
  · decide +kernel
  · have hnumerals : numerals [5, 6] = some [5, 6] := by decide +kernel
    have hpacked : elementsOf (commandDescriptor.field ⟨3, by decide⟩) ⟨4, 2, 1, [2, 5, 6]⟩ =
        some ([5, 6] : List Int32) := by
      change (numerals [5, 6]).map (fun ns => ns.map fun n => (UInt32.ofNat n).toInt32) = some [5, 6]
      rw [hnumerals]
      rfl
    intro f
    match f with
    | ⟨0, _⟩ => rfl
    | ⟨1, _⟩ => rfl
    | ⟨2, _⟩ => rfl
    | ⟨3, _⟩ =>
      change (([⟨4, 0, 0, [7]⟩, ⟨4, 2, 1, [2, 5, 6]⟩] : List Record).mapM
        (elementsOf (commandDescriptor.field ⟨3, by decide⟩))).map List.flatten = some ([7, 5, 6] : List Int32)
      rw [List.mapM_cons, List.mapM_cons, hpacked]
      rfl
  · decide +kernel

theorem unpack_scatteredCommand :
    protobufCMessageUnpack (fun _ => true) commandDescriptor scatteredCommand = .ok scatteredCommandStruct ∧
      protobufCMessageUnpack (fun _ => true) commandDescriptor (scatteredCommand.take 14) = .error .rejected := by
  have hcut : cut scatteredCommand ≠ .error .overlong := by decide +kernel
  have hcut' : cut (scatteredCommand.take 14) = .error .malformed := by decide +kernel
  constructor
  · exact (unpack_iff_decodes commandDescriptor (by decide) hcut).2.2 (fun _ => rfl) _ decodes_scatteredCommand
  · obtain ⟨hsound, hrejects, -⟩ := @unpack_iff_decodes (fun _ => true) (scatteredCommand.take 14)
      commandDescriptor (by decide) (by rw [hcut']; decide)
    cases h : protobufCMessageUnpack (fun _ => true) commandDescriptor (scatteredCommand.take 14) with
    | ok msg =>
      obtain ⟨rs, hrs, -⟩ := hsound msg h
      rw [hcut'] at hrs
      cases hrs
    | error e => rw [hrejects e h]

end Nais.Protobuf
