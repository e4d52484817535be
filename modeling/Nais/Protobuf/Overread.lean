import Nais.Protobuf.Decode

/-!
# Lengths that overflow

`scan_length_prefixed_data` adds a length and the size of its prefix in a word. Where the sum
overflows, the scan goes on inside the prefix and finds no record there, so the bytes are rejected.
If the record belongs to a repeated field of numerals, though, its elements are counted first: the
scan then reads some 4 GB.
-/

namespace Nais.Protobuf
open Board Lib Lib.Base128 Lib.Wire

variable {desc : MessageDescriptor} {alloc : Nat → Bool} {data : List UInt8} {rs : List Record}
  {tag len : Nat} {s : Scan desc}

def FieldType.IsNumeral : FieldType → Prop
  | .enum | .int32 | .sint32 | .uint32 => True
  | _ => False

/-- A tag whose elements are counted byte by byte. -/
def CountsNumerals (desc : MessageDescriptor) (tag : Nat) : Prop :=
  ∃ f, desc.fieldOf (UInt32.ofNat tag) = some f ∧ (desc.field f).label = .repeated ∧
    (desc.field f).type.IsNumeral

/-- The bytes that make the scan leave them: an overflowing length in a repeated field of numerals.
A sum of zero is taken for an error. -/
def Overreads (desc : MessageDescriptor) (data : List UInt8) : Prop :=
  ∃ rs tag len, OverlongAfter data rs tag len ∧ len ≠ 2 ^ 32 - 5 ∧ CountsNumerals desc tag ∧
    ∀ r ∈ rs, ¬Uncountable desc r

lemma maxB128Numbers_short {len : Nat} (h : data.length < len) :
    maxB128Numbers len data = .error .outOfBounds := by
  induction data generalizing len with
  | nil =>
    obtain ⟨k, rfl⟩ := Nat.exists_eq_add_one.mpr h
    rfl
  | cons b data ih =>
    obtain ⟨k, rfl⟩ := Nat.exists_eq_add_one.mpr (by omega : 0 < len)
    have hrest := @ih k (by rw [List.length_cons] at h; omega)
    simp only [maxB128Numbers, hrest, Bind.bind, Except.bind]

/-- The total of an overflowing length is a position in its prefix. -/
lemma scanBody_overlong {wire : Nat} (hlen : data.length < 2 ^ 32)
    (h : bodySize wire data = .error .overlong) :
    (number (data.take 5) % 2 ^ 32 = 2 ^ 32 - 5 ∧
      scanBody (UInt8.ofNat wire) data = .error .rejected) ∨
      ∃ t, 1 ≤ t ∧ t ≤ 4 ∧ number (data.take 5) % 2 ^ 32 = 2 ^ 32 - 5 + t ∧
        scanBody (UInt8.ofNat wire) data = .ok (UInt32.ofNat t, 5) := by
  obtain ⟨rfl, hf, hover⟩ := bodySize_overlong h
  obtain ⟨-, -, hfive⟩ := front_pos hf
  have hscan := scanLengthPrefixedData_eq data hlen
  rw [hf] at hscan
  obtain ⟨t, ht⟩ : ∃ t, number (data.take 5) % 2 ^ 32 = 2 ^ 32 - 5 + t :=
    ⟨number (data.take 5) % 2 ^ 32 - (2 ^ 32 - 5), by omega⟩
  have hsum : (5 + number (data.take 5)) % 2 ^ 32 = t := by omega
  have hword : UInt32.ofNat (5 + number (data.take 5)) = UInt32.ofNat t := by
    apply UInt32.toNat_inj.mp
    rw [UInt32.toNat_ofNat', UInt32.toNat_ofNat', hsum, Nat.mod_eq_of_lt (by omega)]
  dsimp only at hscan
  rw [hsum, if_neg (by omega), hword] at hscan
  have hbody : scanBody (UInt8.ofNat 2) data =
      if UInt32.ofNat t = 0 then .error .rejected else .ok (UInt32.ofNat t, 5) := by
    have hcases : ∀ w : UInt8, w = 2 → scanBody w data =
        if UInt32.ofNat t = 0 then .error .rejected else .ok (UInt32.ofNat t, 5) := by
      rintro w rfl
      simp only [scanBody, hscan, fetch, Except.mapError, Bind.bind, Except.bind]
      rfl
    exact hcases _ rfl
  obtain rfl | hpos := Nat.eq_zero_or_pos t
  · exact .inl ⟨by omega, hbody⟩
  · refine .inr ⟨t, hpos, by omega, ht, ?_⟩
    rw [hbody, if_neg]
    intro hzero
    have htoNat := congrArg UInt32.toNat hzero
    rw [UInt32.toNat_ofNat', UInt32.toNat_zero, Nat.mod_eq_of_lt (by omega)] at htoNat
    omega

lemma number_take_mod_eight {b : UInt8} {k : Nat} (hb : data[0]? = some b) (hk : 0 < k) :
    number (data.take k) % 8 = b.toNat % 8 := by
  cases data with
  | nil => simp at hb
  | cons c rest =>
    rw [List.getElem?_cons_zero, Option.some.injEq] at hb
    obtain ⟨j, rfl⟩ := Nat.exists_eq_add_one.mpr hk
    rw [List.take_succ_cons, number, hb]
    omega

/-- There is no wire type 7. -/
lemma scanMember_wire_seven {b : UInt8} (hb : data[0]? = some b) (hseven : b.toNat % 8 = 7) :
    scanMember alloc s data = .error .rejected := by
  have hne : data ≠ [] := by
    rintro rfl
    simp at hb
  have htag := parseTagAndWiretype_eq hne
  cases hf : front 5 data with
  | none =>
    rw [hf] at htag
    simp only [scanMember, htag, fetch, Except.mapError, Option.map_none, Bind.bind, Except.bind]
    rfl
  | some k =>
    have hwire : number (data.take k) % 8 = 7 := by
      rw [number_take_mod_eight hb (front_pos hf).1, hseven]
    rw [hf] at htag
    simp only [scanMember, htag, fetch, Except.mapError, Option.map_some, Bind.bind, Except.bind,
      fieldOfTag_eq, hwire]
    rfl

/-- The count of a member that ends inside its length prefix. -/
lemma countElements_overlong {f : FieldDescriptor} (hf : f.packed = true → f.type ≠ .string)
    {m : ScannedMember desc} {t : Nat} (ht : 1 ≤ t) (ht4 : t ≤ 4) (hwire : m.wireType = 2)
    (hlen : m.len = UInt32.ofNat t) (hlead : m.lengthPrefixLen = 5)
    (hdata : m.data.length + 16 ≤ 2 ^ 27) :
    ((∃ count, countElements f m = .ok count) ∧ ¬f.type.IsNumeral) ∨
      (countElements f m = .error .rejected ∧ ¬f.type.IsNumeral) ∨
      (countElements f m = .error (.fault .outOfBounds) ∧ f.type.IsNumeral) := by
  have hsub : (m.len - m.lengthPrefixLen).toNat = 2 ^ 32 - 5 + t := by
    have hfive : (5 : UInt32).toNat = 5 := rfl
    rw [hlen, hlead, UInt32.toNat_sub, UInt32.toNat_ofNat', hfive]
    omega
  have hshort : maxB128Numbers (2 ^ 32 - 5 + t) (m.data.drop m.lengthPrefixLen.toNat) =
      .error .outOfBounds := maxB128Numbers_short (by rw [List.length_drop]; omega)
  have hpacked : ∀ t, f.type = t → t ≠ .string → isPacked f m.wireType = true := by
    rintro t rfl ht
    simp [isPacked, isPackableType, hwire, ht]
  cases htype : f.type with
  | sfixed32 | fixed32 | float =>
    rw [countElements, if_pos (hpacked _ htype (by decide)), htype, hsub, countPackedElements]
    by_cases hfour : (2 ^ 32 - 5 + t) % 4 ≠ 0
    · rw [if_pos hfour]
      exact .inr (.inl ⟨rfl, fun h => h⟩)
    · rw [if_neg hfour]
      exact .inl ⟨⟨_, rfl⟩, fun h => h⟩
  | int32 | enum | sint32 | uint32 =>
    rw [countElements, if_pos (hpacked _ htype (by decide)), htype, hsub, countPackedElements, hshort]
    exact .inr (.inr ⟨rfl, trivial⟩)
  | bool =>
    rw [countElements, if_pos (hpacked _ htype (by decide)), htype]
    exact .inl ⟨⟨_, rfl⟩, fun h => h⟩
  | string =>
    have hf' : f.packed = false := by
      by_contra hp
      exact hf (by simpa using hp) htype
    have hone : isPacked f m.wireType = false := by
      rw [isPacked, hf', htype]
      simp [isPackableType]
    rw [countElements, hone]
    exact .inl ⟨⟨_, rfl⟩, fun h => h⟩

/-- Whether a member that ends inside its length prefix is counted does not depend on the scan. -/
lemma count_overlong {m : ScannedMember desc} {t : Nat} (ht : 1 ≤ t) (ht4 : t ≤ 4)
    (hwire : m.wireType = 2) (hlen : m.len = UInt32.ofNat t) (hlead : m.lengthPrefixLen = 5)
    (hdata : m.data.length + 16 ≤ 2 ^ 27) (hfield : m.field = desc.fieldOf (UInt32.ofNat tag)) :
    ((∀ s : Scan desc, ∃ s', s.count m = .ok s') ∧ ¬CountsNumerals desc tag) ∨
      ((∀ s : Scan desc, s.count m = .error .rejected) ∧ ¬CountsNumerals desc tag) ∨
      ((∀ s : Scan desc, s.count m = .error (.fault .outOfBounds)) ∧ CountsNumerals desc tag) := by
  unfold Scan.count CountsNumerals
  rw [hfield]
  cases hf : desc.fieldOf (UInt32.ofNat tag) with
  | none => exact .inl ⟨fun s => ⟨s, rfl⟩, by simp⟩
  | some f =>
    simp only [Option.some.injEq]
    by_cases hrep : (desc.field f).label = .repeated
    · simp only [if_pos hrep]
      obtain ⟨⟨count, hc⟩, hno⟩ | ⟨hc, hno⟩ | ⟨hc, hyes⟩ := countElements_overlong
        (desc.packable (desc.field f) (List.getElem_mem f.isLt)) ht ht4 hwire hlen hlead hdata
      · rw [hc]
        exact .inl ⟨fun s => ⟨_, rfl⟩, fun ⟨g, hg, _, hnum⟩ => hno (hg ▸ hnum)⟩
      · rw [hc]
        exact .inr (.inl ⟨fun s => rfl, fun ⟨g, hg, _, hnum⟩ => hno (hg ▸ hnum)⟩)
      · rw [hc]
        exact .inr (.inr ⟨fun s => rfl, f, rfl, hrep, hyes⟩)
    · simp only [if_neg hrep]
      exact .inl ⟨fun s => ⟨s, rfl⟩, fun ⟨g, hg, hg', _⟩ => hrep (hg ▸ hg')⟩

variable (alloc) in
/-- What the round of an overflowing length ends with. -/
lemma scanMember_overlong {k : Nat} (hs : Scanned s rs) (hlen : rs.length + 16 + data.length ≤ 2 ^ 27)
    (hf : front 5 data = some k)
    (hb : bodySize (number (data.take k) % 8) (data.drop k) = .error .overlong) :
    match scanMember alloc s data with
    | .ok (_, data') => (∃ b, data'[0]? = some b ∧ b.toNat % 8 = 7) ∧
      ¬CountsNumerals desc (number (data.take k) / 8)
    | .error e => e = .rejected ∧ ((∀ size, alloc size) →
        number ((data.drop k).take 5) % 2 ^ 32 ≠ 2 ^ 32 - 5 →
          ¬CountsNumerals desc (number (data.take k) / 8)) ∨
      e = .fault .outOfBounds ∧ number ((data.drop k).take 5) % 2 ^ 32 ≠ 2 ^ 32 - 5 ∧
        CountsNumerals desc (number (data.take k) / 8) := by
  obtain ⟨hk, -, hkl⟩ := front_pos hf
  have hne : data ≠ [] := List.length_pos_iff.mp (by omega)
  have htag := parseTagAndWiretype_eq hne
  rw [hf] at htag
  have hdrop : (data.drop k).length + 16 ≤ 2 ^ 27 := by
    rw [List.length_drop]
    omega
  obtain ⟨hwire, hfive, hover⟩ := bodySize_overlong hb
  have hfivel := (front_pos hfive).2.2
  obtain ⟨hsum, hscan⟩ | ⟨t, ht, ht4, hsum, hscan⟩ := scanBody_overlong (by omega) hb
  · simp only [scanMember, htag, fetch, Except.mapError, Option.map_some, Bind.bind, Except.bind,
      fieldOfTag_eq, hscan]
    exact .inl ⟨trivial, fun _ hlen => absurd hsum hlen⟩
  · have hslab := nextSlab_spec alloc hs.inSlab
    simp only [scanMember, htag, fetch, Except.mapError, Option.map_some, Bind.bind, Except.bind,
      fieldOfTag_eq, hscan, note_whichSlab, note_inSlabIndex]
    cases hn : nextSlab alloc s.whichSlab s.inSlabIndex with
    | error e =>
      rw [hn] at hslab
      refine .inl ⟨hslab.1, fun henough => ?_⟩
      have hfull := hslab.2 henough
      rw [← hs.slabs] at hfull
      omega
    | ok q =>
      obtain ⟨w, i⟩ := q
      have hne5 : number ((data.drop k).take 5) % 2 ^ 32 ≠ 2 ^ 32 - 5 := by omega
      have hwire' : UInt8.ofNat (number (data.take k) % 8) = 2 := by rw [hwire]; rfl
      have hcount := count_overlong
        (m := ⟨UInt32.ofNat (number (data.take k) / 8), UInt8.ofNat (number (data.take k) % 8), 5,
          desc.fieldOf (UInt32.ofNat (number (data.take k) / 8)), UInt32.ofNat t, data.drop k⟩)
        ht ht4 hwire' rfl rfl hdrop rfl
      obtain ⟨hok, hno⟩ | ⟨herr, hno⟩ | ⟨herr, hyes⟩ := hcount
      · choose g hg using hok
        simp only [hg]
        obtain ⟨b, hb, hseven⟩ := overlong_digit hfivel hover ht ht4
        refine ⟨⟨b, ?_, hseven⟩, hno⟩
        rw [UInt32.toNat_ofNat', Nat.mod_eq_of_lt (by omega), List.getElem?_drop]
        exact hb
      · simp only [herr]
        exact .inl ⟨trivial, fun _ _ => hno⟩
      · simp only [herr]
        exact .inr ⟨trivial, hne5, hyes⟩

variable (alloc) in
/-- An overflowing length ends the scan. -/
lemma scanLoop_overlong (hs : Scanned s rs) {rs' : List Record} (h : OverlongAfter data rs' tag len)
    (hlen : rs.length + 16 + data.length ≤ 2 ^ 27) :
    (scanLoop alloc s data = .error .rejected ∧ ((∀ size, alloc size) → len ≠ 2 ^ 32 - 5 →
      CountsNumerals desc tag → ∃ r ∈ rs', Uncountable desc r)) ∨
      (scanLoop alloc s data = .error (.fault .outOfBounds) ∧ len ≠ 2 ^ 32 - 5 ∧
        CountsNumerals desc tag ∧ ∀ r ∈ rs', ¬Uncountable desc r) := by
  induction h generalizing s rs with
  | @here data k hf hb =>
    have hne : data ≠ [] := List.length_pos_iff.mp (by have := front_pos hf; omega)
    have hstep := scanMember_overlong alloc hs hlen hf hb
    cases hm : scanMember alloc s data with
    | error e =>
      rw [hm] at hstep
      rw [scanLoop_of_error alloc hne hm]
      obtain ⟨rfl, hno⟩ | ⟨rfl, hlen, hyes⟩ := hstep
      · exact .inl ⟨rfl, fun henough hlen hyes => absurd hyes (hno henough hlen)⟩
      · exact .inr ⟨rfl, hlen, hyes, by simp⟩
    | ok p =>
      obtain ⟨s', data'⟩ := p
      rw [hm] at hstep
      obtain ⟨⟨b, hb, hseven⟩, hno⟩ := hstep
      have hne' : data' ≠ [] := by
        rintro rfl
        simp at hb
      rw [scanLoop_of_ok alloc hm, scanLoop_of_error alloc hne' (scanMember_wire_seven hb hseven)]
      exact .inl ⟨rfl, fun _ _ hyes => absurd hyes hno⟩
  | @there data rest r rs' tag len hc _ ih =>
    have hlt := cutRecord_length_lt hc
    have hne : data ≠ [] := List.length_pos_iff.mp (by omega)
    have hstep := scanMember_spec alloc hs hne (by omega) (by simp [hc])
    rw [hc] at hstep
    dsimp only at hstep
    cases hm : scanMember alloc s data with
    | error e =>
      rw [hm] at hstep
      rw [scanLoop_of_error alloc hne hm]
      obtain ⟨rfl, hwhy⟩ := hstep
      refine .inl ⟨rfl, fun henough _ _ => ?_⟩
      obtain hfull | hun := hwhy henough
      · omega
      · exact ⟨r, List.mem_cons_self, hun⟩
    | ok p =>
      obtain ⟨s', data'⟩ := p
      rw [hm] at hstep
      obtain ⟨rfl, hs'⟩ := hstep
      -- the record was counted
      have hr : ¬Uncountable desc r := by
        rintro ⟨f, hkey, hrep, hnone⟩
        obtain ⟨ns, hns, -⟩ := hs'.counts f hrep
        rw [itemsOf_concat, if_pos hkey] at hns
        obtain ⟨c, hcount⟩ := Route.exists_of_mapM hns (List.mem_append_right _ List.mem_cons_self)
        rw [hnone] at hcount
        cases hcount
      rw [scanLoop_of_ok alloc hm]
      obtain ⟨hrej, hwhy⟩ | ⟨hfault, hlen, hyes, hall⟩ := ih hs' (by
        rw [List.length_append, List.length_singleton]
        omega)
      · refine .inl ⟨hrej, fun henough hlen hyes => ?_⟩
        obtain ⟨q, hq, hun⟩ := hwhy henough hlen hyes
        exact ⟨q, List.mem_cons_of_mem _ hq, hun⟩
      · exact .inr ⟨hfault, hlen, hyes, List.forall_mem_cons.mpr ⟨hr, hall⟩⟩

variable (alloc) in
/-- A stream with an overflowing length is rejected or read beyond its end. -/
lemma unpack_overlong (desc : MessageDescriptor) (h : OverlongAfter data rs tag len)
    (hlen : data.length + 16 ≤ 2 ^ 27) :
    (protobufCMessageUnpack alloc desc data = .error .rejected ∧
      (Enough alloc → ¬Overreads desc data)) ∨
      (protobufCMessageUnpack alloc desc data = .error (.fault .outOfBounds) ∧ Overreads desc data) := by
  unfold protobufCMessageUnpack
  cases hmsg : doAlloc alloc desc.sizeofMessage with
  | error e =>
    obtain ⟨rfl, hno⟩ := doAlloc_error hmsg
    exact .inl ⟨rfl, fun henough => absurd henough hno⟩
  | ok _ =>
    simp only [Bind.bind, Except.bind]
    cases hbitmap : doAllocIf alloc (16 < (desc.fields.length + 7) / 8)
        ((desc.fields.length + 7) / 8) with
    | error e =>
      obtain ⟨rfl, hno⟩ := doAllocIf_error hbitmap
      exact .inl ⟨rfl, fun henough => absurd henough hno⟩
    | ok _ =>
      dsimp only
      obtain ⟨hrej, hwhy⟩ | ⟨hfault, hne, hyes, hall⟩ := scanLoop_overlong alloc
        scanned_init h (by rw [List.length_nil]; omega)
      · rw [hrej]
        refine .inl ⟨rfl, fun henough hover => ?_⟩
        obtain ⟨rs', tag', len', h', hne, hyes, hall⟩ := hover
        obtain ⟨rfl, rfl, rfl⟩ := h.unique h'
        obtain ⟨r, hr, hun⟩ := hwhy henough hne hyes
        exact hall r hr hun
      · rw [hfault]
        exact .inr ⟨rfl, rs, tag, len, h, hne, hyes, hall⟩

variable (alloc) in
/-- Unpacking goes wrong exactly on the bytes that overflow a length in a repeated field of numerals.
Whatever else it does not accept it rejects. -/
theorem unpack_faults_iff (desc : MessageDescriptor) (hlen : data.length + 16 ≤ 2 ^ 27) :
    (∀ e, protobufCMessageUnpack alloc desc data = .error e → e = .rejected ∨
      e = .fault .outOfBounds ∧ Overreads desc data) ∧
      (Enough alloc → (protobufCMessageUnpack alloc desc data = .error (.fault .outOfBounds) ↔
        Overreads desc data)) := by
  by_cases hlong : cut data = .error .overlong
  · obtain ⟨rs, tag, len, hover⟩ := cut_eq_overlong_iff.mp hlong
    obtain ⟨hrej, hno⟩ | ⟨hfault, hyes⟩ := unpack_overlong alloc desc hover hlen
    · rw [hrej]
      refine ⟨fun e he => .inl (Except.error.inj he).symm, fun henough => ⟨fun h => ?_, fun h => ?_⟩⟩
      · cases h
      · exact absurd h (hno henough)
    · rw [hfault]
      exact ⟨fun e he => .inr ⟨(Except.error.inj he).symm, hyes⟩, fun _ => ⟨fun _ => hyes, fun _ => rfl⟩⟩
  · have hout := unpack_outcome alloc desc hlen hlong
    have hrejected : ∀ e, protobufCMessageUnpack alloc desc data = .error e → e = .rejected := by
      intro e he
      rw [he] at hout
      exact hout.1
    refine ⟨fun e he => .inl (hrejected e he), fun _ => ⟨fun he => ?_, fun hover => ?_⟩⟩
    · cases hrejected _ he
    · obtain ⟨rs, tag, len, hover, -⟩ := hover
      exact absurd (cut_eq_overlong_iff.mpr ⟨rs, tag, len, hover⟩) hlong

theorem unpack_overreads_command : protobufCMessageUnpack (fun _ => true) commandDescriptor
    [0x22, 0xff, 0xff, 0xff, 0xff, 0x0f] = .error (.fault .outOfBounds) := by
  have hlong := @OverlongAfter.here [0x22, 0xff, 0xff, 0xff, 0xff, 0x0f] 1 rfl rfl
  have htag : Base128.number (([0x22, 0xff, 0xff, 0xff, 0xff, 0x0f] : List UInt8).take 1) / 8 = 4 := by decide
  have hlen : Base128.number ((([0x22, 0xff, 0xff, 0xff, 0xff, 0x0f] : List UInt8).drop 1).take 5) % 2 ^ 32 =
      2 ^ 32 - 1 := by decide
  rw [htag, hlen] at hlong
  exact ((unpack_faults_iff (fun _ => true) commandDescriptor (by decide)).2 fun _ => rfl).mpr
    ⟨[], 4, 2 ^ 32 - 1, hlong, by decide, ⟨⟨3, by decide⟩, by decide, by decide, trivial⟩, by simp⟩

end Nais.Protobuf
