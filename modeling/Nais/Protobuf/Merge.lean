import Nais.Protobuf.RoundTrip

/-!
# Messages in pieces

`merge_messages`, and what the bytes of two messages one behind the other mean. A later value takes
the place of an earlier one, and the elements of repeated fields come one after the other.
-/

namespace Nais.Protobuf
open Board Lib Lib.Wire

section Code

variable (alloc : Nat → Bool)

/-- The body of the loop over the fields: the member of the latter message. -/
def mergeMember (t : FieldType) : (l : Label) → Member l t → Member l t → Option (Member l t)
  | .repeated, earlier, latter =>
    if 0 < earlier.length then
      if 0 < latter.length then
        if alloc ((earlier.length + latter.length) * (sizeofEltInRepeatedArray t).toNat) then
          some (earlier ++ latter)
        else none
      else some earlier
    else some latter
  | .optional, earlier, latter => some (if earlier.1 && !latter.1 then earlier else latter)
  | .required, _, latter => some latter

/-- `none` is the result `FALSE`. -/
def mergeLoop {desc : MessageDescriptor} (earlier : Message desc) :
    List desc.Index → Message desc → Option (Message desc)
  | [], latter => some latter
  | f :: fs, latter =>
    match mergeMember alloc (desc.field f).type (desc.field f).label (earlier.members f)
        (latter.members f) with
    | none => none
    | some v => mergeLoop earlier fs { latter with members := Function.update latter.members f v }

def mergeMessages {desc : MessageDescriptor} (earlier latter : Message desc) : Option (Message desc) :=
  mergeLoop alloc earlier (List.finRange desc.fields.length) latter

end Code

variable {desc : MessageDescriptor} {alloc : Nat → Bool} {rs rs' : List Record} {f : FieldDescriptor}
  {l : Label}

lemma mergeMember_ok (henough : Enough alloc) {t : FieldType} (earlier latter : Member l t) :
    ∃ v, mergeMember alloc t l earlier latter = some v := by
  cases l with
  | required | optional => exact ⟨_, rfl⟩
  | «repeated» =>
    simp only [mergeMember, henough _]
    split_ifs <;> exact ⟨_, rfl⟩

/-- The values of two streams of records are merged to the value of both. The default of a required
field would hide an earlier value. -/
lemma valueOf_append (hdefault : l = .required → f.defaultValue = none) {v v' w : Member l f.type}
    (h : valueOf f rs l = some v) (h' : valueOf f rs' l = some v')
    (hmerge : mergeMember alloc f.type l v v' = some w) : valueOf f (rs ++ rs') l = some w := by
  cases l with
  | required =>
    obtain ⟨vs, hvs, hlast⟩ := Option.bind_eq_some_iff.mp h
    obtain ⟨vs', hvs', hlast'⟩ := Option.bind_eq_some_iff.mp h'
    rw [hdefault rfl, Option.or_none] at hlast hlast'
    cases hmerge
    simp [valueOf, hvs, hvs', hlast']
  | optional =>
    obtain ⟨vs, hvs, rfl⟩ := Option.map_eq_some_iff.mp h
    obtain ⟨vs', hvs', rfl⟩ := Option.map_eq_some_iff.mp h'
    cases hmerge
    induction vs' using List.reverseRecOn with
    | nil =>
      induction vs using List.reverseRecOn with
      | nil => simp [valueOf, hvs, hvs']
      | append_singleton vs u _ => simp [valueOf, hvs, hvs']
    | append_singleton vs' u _ =>
      have hne : ∀ us : List (Cell f.type), (us ++ [u]).isEmpty = false := by
        intro us
        cases us <;> rfl
      simp [valueOf, hvs, hvs', ← List.append_assoc, hne]
  | «repeated» =>
    obtain ⟨vss, hvss, rfl⟩ := Option.map_eq_some_iff.mp h
    obtain ⟨vss', hvss', rfl⟩ := Option.map_eq_some_iff.mp h'
    have hboth : valueOf f (rs ++ rs') .repeated = some (vss.flatten ++ vss'.flatten) := by
      simp [valueOf, hvss, hvss']
    rw [hboth]
    simp only [mergeMember] at hmerge
    split_ifs at hmerge with hpos hpos'
    · exact hmerge
    · have hnil : vss'.flatten = [] := List.length_eq_zero_iff.mp (by omega)
      rw [hnil, List.append_nil]
      exact hmerge
    · have hnil : vss.flatten = [] := List.length_eq_zero_iff.mp (by omega)
      rw [hnil, List.nil_append]
      exact hmerge

/-- The loop merges the members of the fields that it goes over, and leaves the others. -/
lemma mergeLoop_spec (henough : Enough alloc) (earlier : Message desc) {fs : List desc.Index}
    (hnodup : fs.Nodup) (latter : Message desc) :
    ∃ msg, mergeLoop alloc earlier fs latter = some msg ∧ msg.unknownFields = latter.unknownFields ∧
      (∀ f ∈ fs, mergeMember alloc (desc.field f).type (desc.field f).label (earlier.members f)
        (latter.members f) = some (msg.members f)) ∧
      ∀ f, f ∉ fs → msg.members f = latter.members f := by
  induction fs generalizing latter with
  | nil => exact ⟨latter, rfl, rfl, by simp, fun _ _ => rfl⟩
  | cons f fs ih =>
    obtain ⟨hf, hnodup⟩ := List.nodup_cons.mp hnodup
    obtain ⟨v, hv⟩ := mergeMember_ok (l := (desc.field f).label) henough (earlier.members f)
      (latter.members f)
    obtain ⟨msg, hmsg, hunknown, hmembers, hothers⟩ := ih hnodup
      { latter with members := Function.update latter.members f v }
    refine ⟨msg, ?_, hunknown, ?_, ?_⟩
    · rw [mergeLoop, hv]
      exact hmsg
    · rw [List.forall_mem_cons]
      refine ⟨?_, fun g hg => ?_⟩
      · have hself := hothers f hf
        dsimp only at hself
        rw [hself, hv, Function.update_self]
      · have hne : g ≠ f := fun h => hf (h ▸ hg)
        have hg' := hmembers g hg
        dsimp only at hg'
        rwa [Function.update_of_ne hne] at hg'
    · intro g hg
      rw [List.mem_cons, not_or] at hg
      have hg' := hothers g hg.2
      dsimp only at hg'
      rwa [Function.update_of_ne hg.1] at hg'

/-- What two pieces mean one behind the other. -/
lemma Decodes.append {as bs : List UInt8} {earlier latter msg : Message desc} (henough : Enough alloc)
    (hdefault : ∀ f, (desc.field f).label = .required → (desc.field f).defaultValue = none)
    (h : Decodes desc as earlier) (h' : Decodes desc bs latter)
    (hmerge : mergeMessages alloc earlier latter = some msg) :
    Decodes desc (as ++ bs)
      { msg with unknownFields := earlier.unknownFields ++ latter.unknownFields } := by
  obtain ⟨rs, hcut, hmeans⟩ := h
  obtain ⟨rs', hcut', hmeans'⟩ := h'
  obtain ⟨msg', hmsg', -, hmembers, -⟩ := mergeLoop_spec henough earlier
    (List.nodup_finRange desc.fields.length) latter
  rw [mergeMessages, hmsg', Option.some.injEq] at hmerge
  subst hmerge
  refine ⟨rs ++ rs', by rw [cut_append hcut, hcut']; rfl, fun f => ?_, ?_⟩
  · rw [Route.itemsOf_append]
    exact valueOf_append (hdefault f) (hmeans.member f) (hmeans'.member f)
      (hmembers f (List.mem_finRange f))
  · rw [hmeans.unknown, hmeans'.unknown, unknownRecords, unknownRecords, unknownRecords,
      List.filter_append, List.map_append]

/-- Unpacking two packed messages as one merges them, as `merge_messages` does with what they are
unpacked to. Only the unknown fields of the earlier one get lost in `merge_messages`. -/
theorem unpack_append {as bs : List UInt8} {earlier latter : Message desc} {alloc₁ alloc₂ : Nat → Bool}
    (hlen : (as ++ bs).length + 16 ≤ 2 ^ 27) (henough : Enough alloc)
    (hdefault : ∀ f, (desc.field f).label = .required → (desc.field f).defaultValue = none)
    (hlong : cut as ≠ .error .overlong) (hlong' : cut bs ≠ .error .overlong)
    (h : protobufCMessageUnpack alloc₁ desc as = .ok earlier)
    (h' : protobufCMessageUnpack alloc₂ desc bs = .ok latter) :
    ∃ msg, mergeMessages alloc earlier latter = some msg ∧
      msg.unknownFields = latter.unknownFields ∧
      protobufCMessageUnpack alloc desc (as ++ bs) =
        .ok { msg with unknownFields := earlier.unknownFields ++ latter.unknownFields } := by
  rw [List.length_append] at hlen
  have hout := unpack_outcome alloc₁ desc (by omega) hlong
  have hout' := unpack_outcome alloc₂ desc (by omega) hlong'
  rw [h] at hout
  rw [h'] at hout'
  obtain ⟨msg, hmsg, hunknown, -, -⟩ := mergeLoop_spec henough earlier
    (List.nodup_finRange desc.fields.length) latter
  refine ⟨msg, hmsg, hunknown, ?_⟩
  exact unpack_of_decodes (by rw [List.length_append]; omega) henough
    (Decodes.append henough hdefault hout hout' hmsg)

/-- `Command(id=6, seq=2, ivals=[9])`. -/
def laterCommandStruct : Message commandDescriptor where
  members
    | ⟨0, _⟩ => (6 : Int32)
    | ⟨1, _⟩ => (true, (2 : Int32))
    | ⟨2, _⟩ => ([] : List (List UInt8))
    | ⟨3, _⟩ => ([9] : List Int32)
  unknownFields := []

lemma unpack_laterCommand :
    protobufCMessageUnpack (fun _ => true) commandDescriptor [8, 6, 0x10, 2, 0x20, 9] = .ok laterCommandStruct := by
  have hcut : cut [8, 6, 0x10, 2, 0x20, 9] =
      .ok [⟨1, 0, 0, [6]⟩, ⟨2, 0, 0, [2]⟩, ⟨4, 0, 0, [9]⟩] := by decide +kernel
  refine unpack_of_decodes (by decide) (fun _ => rfl) ⟨_, hcut, fun f => ?_, by decide +kernel⟩
  match f with
  | ⟨0, _⟩ => rfl
  | ⟨1, _⟩ => rfl
  | ⟨2, _⟩ => rfl
  | ⟨3, _⟩ => rfl

/-- The later number counts, and the elements of both commands are there. -/
theorem unpack_append_scatteredCommand :
    ∃ msg, mergeMessages (fun _ => true) scatteredCommandStruct laterCommandStruct = some msg ∧
      msg.members ⟨0, by decide⟩ = (6 : Int32) ∧ msg.members ⟨3, by decide⟩ = ([7, 5, 6, 9] : List Int32) ∧
      protobufCMessageUnpack (fun _ => true) commandDescriptor
        (scatteredCommand ++ [8, 6, 0x10, 2, 0x20, 9]) =
        .ok { msg with unknownFields := [⟨15, 2, [1, 0x61]⟩] } := by
  have hcut : cut scatteredCommand ≠ .error .overlong := by decide +kernel
  have hcut' : cut [8, 6, 0x10, 2, 0x20, 9] ≠ .error .overlong := by decide +kernel
  obtain ⟨msg, hmerge, -, hunpack⟩ := @unpack_append _ (fun _ => true) _ _ _ _ (fun _ => true)
    (fun _ => true) (by decide) (fun _ => rfl) (by decide) hcut hcut' unpack_scattered unpack_laterCommand
  refine ⟨msg, hmerge, ?_, ?_, hunpack⟩
  · cases hmerge
    rfl
  · cases hmerge
    rfl

end Nais.Protobuf
