import PdfConformance.Proofs.Grammar.Parts

/-! # What forms are

`IsForm` is the grammar of forms: what stands under which key, with no order among the entries.
`judgeForm_eq_ok_iff`: the forms that are accepted are these. -/

namespace PdfConformance

open Inquiry

/-- A form, with this far to go. What applications keep with it needs a date, and an object is in
the structure of its document by one key at most. -/
@[mk_iff]
structure IsForm (walk : Walk) (k : Container) : Prop where
  formType : k.Allows "FormType" fun value => value = .integer 1
  bounds : k.Holds "BBox" (Object.IsRectangle k.find)
  matrix : k.Allows "Matrix" (Object.TupleOf k.find 6 (Object.OfKind Kind.numbers))
  resources : k.MayEnter walk .v1_2 "Resources" fun inner => k.Dictionary fun resources =>
    (Grammar.resources.check k.profile (deeper k.profile inner.levels inner.trail)
      resources.entries).run k.find = .ok ()
  group : k.MayEnter walk .v1_4 "Group" fun _ => k.Dictionary IsTransparencyGroup
  reference : k.MayEnter walk .v1_4 "Ref" fun _ => k.Dictionary IsReferencedPage
  metadata : k.AllowsSince .v1_4 "Metadata" (k.Stream IsMetadata)
  pieceInfo : k.MayEnter walk .v1_3 "PieceInfo" fun _ => k.Dictionary IsPieceInfo
  lastModified : k.AllowsSince .v1_3 "LastModified" (Object.IsDate k.profile.mode)
  dated : k.Absent "PieceInfo" ∨ ¬ k.Absent "LastModified"
  structParent : k.AllowsSince .v1_3 "StructParent" (Object.OfKind [.integer])
  structParents : k.AllowsSince .v1_3 "StructParents" (Object.OfKind [.integer])
  exclusive : k.Absent "StructParent" ∨ k.Absent "StructParents"
  prepress : k.MayEnter walk .v1_2 "OPI" fun inner => k.Dictionary (IsPrepress inner)
  optionalContent : k.AllowsSince .v1_5 "OC" (k.Dictionary IsOptionalContent)
  name : k.HoldsIf (k.profile.version = .v1_0) "Name" (Object.OfKind [.name])

variable {find : ObjectId → Option Object} {p : Profile} {levels : Nat} {trail : Trail}
  {header : Dict} {c : String}

theorem run_resourcesClause_iff :
    ((Clause.enter (.since .v1_2 (.optional "Resources" .dictionary)) .resources).check p
        (deeper p levels trail) c header).run find = .ok () ↔
      (Container.mk find p header).MayEnter ⟨levels, trail⟩ .v1_2 "Resources" fun inner =>
        (Container.mk find p header).Dictionary fun resources =>
          (Grammar.resources.check p (deeper p inner.levels inner.trail) resources.entries).run
            find = .ok () :=
  Clause.run_enter_dictionary rfl fun _ _ => Iff.rfl

theorem run_groupClause_iff :
    ((Clause.enter (.since .v1_4 (.optional "Group" .dictionary))
        (.table Grammar.transparencyGroup)).check p (deeper p levels trail) c header).run find =
        .ok () ↔
      (Container.mk find p header).MayEnter ⟨levels, trail⟩ .v1_4 "Group" fun _ =>
        (Container.mk find p header).Dictionary IsTransparencyGroup :=
  Clause.run_enter_dictionary rfl fun _ _ => run_transparencyGroup_iff

theorem run_referenceClause_iff :
    ((Clause.enter (.since .v1_4 (.optional "Ref" .dictionary))
        (.table Grammar.referencedPage)).check p (deeper p levels trail) c header).run find =
        .ok () ↔
      (Container.mk find p header).MayEnter ⟨levels, trail⟩ .v1_4 "Ref" fun _ =>
        (Container.mk find p header).Dictionary IsReferencedPage :=
  Clause.run_enter_dictionary rfl fun _ _ => run_referencedPage_iff

theorem run_pieceInfoClause_iff :
    ((Clause.enterWith (.since .v1_3 (.optional "PieceInfo" .dictionary))
        (.since .v1_3 (.optional "LastModified" .date)) Grammar.pieceInfo .pieceInfo).check p
        (deeper p levels trail) c header).run find = .ok () ↔
      ((Container.mk find p header).MayEnter ⟨levels, trail⟩ .v1_3 "PieceInfo" fun _ =>
          (Container.mk find p header).Dictionary IsPieceInfo) ∧
        (Container.mk find p header).AllowsSince .v1_3 "LastModified" (Object.IsDate p.mode) ∧
        ((Container.mk find p header).Absent "PieceInfo" ∨
          ¬ (Container.mk find p header).Absent "LastModified") := by
  rw [Clause.run_enterWith_iff]
  · refine and_congr (Clause.run_enter_dictionary rfl fun _ _ => run_pieceInfo_iff) ?_
    simp [Shape.Fits]
  · intro value
    simp [Shape.Fits, Shape.kinds, Object.OfKind, Schema.kind]

/-- A form is accepted if its entries are those of a form, whatever the order in which they are
looked at: every entry that is ill-formed is refused, and no form is. -/
theorem judgeForm_eq_ok_iff (find : ObjectId → Option Object) (p : Profile) (levels : Nat)
    (trail : Trail) (header : Dict) :
    (judgeForm p (deeper p levels trail) header).run find = .ok () ↔
      IsForm ⟨levels, trail⟩ ⟨find, p, header⟩ := by
  unfold judgeForm
  rw [Sheet.run_check_iff, isForm_iff]
  simp only [Grammar.form, List.forall_mem_cons, run_resourcesClause_iff, run_groupClause_iff,
    run_referenceClause_iff, run_metadataClause_iff, run_pieceInfoClause_iff,
    run_prepressClause_iff, run_optionalContentClause_iff, Clause.run_obey_iff,
    Clause.run_exclude_iff]
  simp [Grammar.structParent, Grammar.resourceName, Container.Demands, Shape.Fits, Shape.kinds,
    and_assoc]

end PdfConformance
