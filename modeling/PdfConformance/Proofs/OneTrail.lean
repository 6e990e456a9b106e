import PdfConformance.Document
import PdfConformance.Judgement.OneTrail
import PdfConformance.Proofs.Rule.Meaning

/-! # A walk leaves its trail as it was

`Examiner.Follows` compares a stretch of a walk, which changes its one trail in place, with the
inquiry that is made when the trail is given: both come to the same, and afterwards the trail is what
it was. So a walk may be taken up from a shorter trail and a lesser depth, and comes to the same
unless it was refused to go on from the longer one. -/

namespace PdfConformance

open Inquiry

@[simp] theorem Trail.pop_push (trail : Trail) (stored : Object) :
    (trail.push stored).pop stored = trail := by
  simp [pop, push]

/-! ## How courses go -/

namespace Course

variable {α β : Type}

/-- The second part begins where the first has ended well. -/
theorem goFrom_bind (course : Course α) (f : α → Course β) (position : Position) :
    (course >>= f).goFrom position =
      match course.goFrom position with
      | (.ok a, after) => (f a).goFrom after
      | (.error fault, after) => (.error fault, after) := by
  unfold goFrom
  rw [ExceptT.run_bind, StateT.run_bind]
  change (match StateT.run course.run position with | (result, after) => _) = _
  cases StateT.run course.run position with
  | mk result after => cases result <;> rfl

/-- What is undone at the end is undone after a fault, too. -/
theorem goFrom_finally (course : Course Unit) (undo : Position → Position) (position : Position) :
    Course.goFrom (try course finally modify undo) position =
      ((course.goFrom position).1, undo (course.goFrom position).2) := by
  -- the position is the only one that the course is begun from
  change Course.goFrom (try (fun _ => course.goFrom position : Course Unit) finally modify undo)
    position = _
  cases course.goFrom position with
  | mk result after => cases result <;> rfl

end Course

namespace Examiner

variable (e : Examiner) {α β : Type}

theorem goFrom_ask_pause (next : Inquiry α) (position : Position) :
    (e.ask (.pause next)).goFrom position =
      if position.patience? = some 0 then (.error .cancelled, position)
      else (e.ask next).goFrom position := by
  simp only [ask, Inquiry.conduct]
  rw [Course.goFrom_bind]
  change Course.goFrom (if position.patience? = some 0 then _ else _) position = _
  split <;> rfl

theorem goFrom_ask_ask (id : ObjectId) (next : Option Object → Inquiry α) (position : Position) :
    (e.ask (.ask id next)).goFrom position =
      (e.ask (next (e.find id))).goFrom
        { position with patience? := position.patience?.map (· - 1) } :=
  rfl

theorem goFrom_ask_bind (x : Inquiry α) (f : α → Inquiry β) (position : Position) :
    (e.ask (x >>= f)).goFrom position = (e.ask x >>= fun a => e.ask (f a)).goFrom position := by
  induction x generalizing position with
  | done a => rfl
  | fail fault => rfl
  | pause next ih =>
    rw [pause_bind, goFrom_ask_pause, ih, Course.goFrom_bind, Course.goFrom_bind, goFrom_ask_pause]
    split <;> rfl
  | ask id next ih =>
    rw [ask_bind, goFrom_ask_ask, ih, Course.goFrom_bind, Course.goFrom_bind, goFrom_ask_ask]

/-- Questions neither look at the trail nor change it. -/
theorem goFrom_ask_on (x : Inquiry α) (trail trail' : Trail) (patience? : Option Nat) :
    (e.ask x).goFrom ⟨trail', patience?⟩ =
      (((e.ask x).goFrom ⟨trail, patience?⟩).1,
        ⟨trail', ((e.ask x).goFrom ⟨trail, patience?⟩).2.patience?⟩) := by
  induction x generalizing patience? with
  | done a => rfl
  | fail fault => rfl
  | pause next ih =>
    rw [goFrom_ask_pause, goFrom_ask_pause]
    split
    · rfl
    · exact ih patience?
  | ask id next ih =>
    rw [goFrom_ask_ask, goFrom_ask_ask]
    exact ih (e.find id) _

theorem trail_ask (x : Inquiry α) (position : Position) :
    ((e.ask x).goFrom position).2.trail = position.trail :=
  congrArg (·.2.trail) (e.goFrom_ask_on x position.trail position.trail position.patience?)

theorem verdict_ask (x : Inquiry α) (trail : Trail) (patience? : Option Nat) :
    ((e.ask x).goFrom ⟨trail, patience?⟩).1 = x.verdict e.find patience? := by
  induction x generalizing patience? with
  | done a => rcases patience? with _ | _ | _ <;> rfl
  | fail fault => rcases patience? with _ | _ | _ <;> rfl
  | pause next ih =>
    rw [goFrom_ask_pause]
    rcases patience? with _ | _ | patience
    · exact ih none
    · rfl
    · exact ih (some (patience + 1))
  | ask id next ih =>
    rw [goFrom_ask_ask, ih]
    rcases patience? with _ | _ | patience <;> rfl

/-- The way deeper is refused before anything is changed; otherwise the way back is taken. -/
theorem goFrom_descend (site : Site) (stored : Object) (course : Course Unit)
    (position : Position) :
    (e.descend site stored course).goFrom position =
      if position.trail.revisits stored || e.maxDepth ≤ position.trail.depth then
        (.error (position.trail.stop site stored), position)
      else
        let inner := course.goFrom ⟨position.trail.push stored, position.patience?⟩
        (inner.1, ⟨inner.2.trail.pop stored, inner.2.patience?⟩) := by
  unfold descend
  rw [Course.goFrom_bind]
  change Course.goFrom
    (if position.trail.revisits stored || e.maxDepth ≤ position.trail.depth then _ else _)
    position = _
  split
  · rfl
  · exact Course.goFrom_finally course _ _

/-! ## The inquiry from a given trail -/

/-- One level deeper by way of the stored value, if the trail and the limit allow it. -/
def within (trail : Trail) (site : Site) (stored : Object) (inner : Trail → Inquiry Unit) :
    Inquiry Unit :=
  if trail.revisits stored || e.maxDepth ≤ trail.depth then .fail (trail.stop site stored)
  else inner (trail.push stored)

/-- Entering from the trail, with all the levels that the limit leaves. -/
def deeper (trail : Trail) : Enter :=
  PdfConformance.deeper e.profile (e.maxDepth - trail.depth) trail

theorem deeper_eq (trail : Trail) (site : Site) (entry : Entry) (schema : Schema) :
    e.deeper trail site entry schema =
      e.within trail site entry.stored fun trail =>
        PdfConformance.judge e.profile (e.deeper trail) schema entry.value := by
  unfold deeper within
  by_cases hdepth : e.maxDepth ≤ trail.depth
  · have hlevels : e.maxDepth - trail.depth = 0 := Nat.sub_eq_zero_of_le hdepth
    simp [hlevels, hdepth, PdfConformance.deeper]
  · have hlevels : e.maxDepth - trail.depth = e.maxDepth - (trail.push entry.stored).depth + 1 := by
      simp only [Trail.push]
      omega
    rw [hlevels, PdfConformance.deeper]
    simp [hdepth]

/-- An image that may replace another, named in faults by a container. -/
def judgeAlternateAt (enter : Enter) (container : String) (item : Object) : Inquiry Unit := do
  let site : Site := ⟨container, Grammar.alternates.key⟩
  match ← valueIfAny site false item with
  | none => return
  | some value@(.stream _) => enter site ⟨item, value⟩ (.image .alternate)
  | some value@(.dictionary _) => enter site ⟨item, value⟩ .alternateImage
  | some value => unexpected site Grammar.alternateShape value

/-- An external object that a site holds. What is absent is passed over. -/
def judgeMemberAt (enter : Enter) (site : Site) (hint : Hint) (required : Bool) (stored : Object) :
    Inquiry Unit := do
  match ← valueIfAny site required stored with
  | none => return
  | some value@(.stream _) => enter site ⟨stored, value⟩ (.external hint)
  | some value => unexpected site .stream value

/-- What a routine inquires into when it is begun from the trail. -/
def inquiry (trail : Trail) : Routine → Inquiry Unit
  | .member site hint required stored => judgeMemberAt (e.deeper trail) site hint required stored
  | .external hint header => judgeExternal e.profile (e.deeper trail) hint header
  | .image use header => judgeImage e.profile (e.deeper trail) use header
  | .mask owner container entry =>
    let site : Site := ⟨container, Grammar.mask.key⟩
    match entry.value with
    | .stream _ =>
      e.deeper trail site entry
        (if owner = .explicitMask then .barred site .maskedMask else .image .explicitMask)
    | .array _ => return
    | value => unexpected site Grammar.mask.shape value
  | .alternates owner container entry =>
    let site : Site := ⟨container, Grammar.alternates.key⟩
    match entry.value with
    | .array items =>
      if owner = .primary then
        e.within trail site entry.stored fun trail =>
          items.forM (judgeAlternateAt (e.deeper trail) container)
      else .require items.isEmpty (.constraint site .nestedAlternates)
    | _ => return
  | .alternateImage entries => Grammar.alternateImage.check e.profile (e.deeper trail) entries
  | .form header => judgeForm e.profile (e.deeper trail) header
  | .resources entries => Grammar.resources.check e.profile (e.deeper trail) entries
  | .prepress entries => judgePrepress (e.deeper trail) entries
  | .pieceInfo entry =>
    match entry.value with
    | .dictionary _ => e.deeper trail ⟨Grammar.pieceInfo, "PieceInfo"⟩ entry .pieceInfo
    | _ => return

/-! ## Courses follow inquiries -/

/-- From the trail the course goes as the inquiry does, which leaves the trail alone. -/
def Follows (trail : Trail) (course : Course α) (x : Inquiry α) : Prop :=
  ∀ patience?, course.goFrom ⟨trail, patience?⟩ = (e.ask x).goFrom ⟨trail, patience?⟩

/-- Entering on the way of a walk follows entering from the trail. -/
def EnterFollows (trail : Trail) (entrance : Entrance) (enter : Enter) : Prop :=
  ∀ site entry schema, e.Follows trail (entrance site entry schema) (enter site entry schema)

variable {e} {trail : Trail}

namespace Follows

theorem ask (x : Inquiry α) : e.Follows trail (e.ask x) x := fun _ => rfl

theorem fail (fault : Fault) : e.Follows trail (throw fault : Course α) (.fail fault) :=
  fun _ => rfl

theorem done (a : α) : e.Follows trail (pure a) (.done a) := fun _ => rfl

theorem bind {course : Course α} {x : Inquiry α} {f : α → Course β} {g : α → Inquiry β}
    (h : e.Follows trail course x) (hf : ∀ a, e.Follows trail (f a) (g a)) :
    e.Follows trail (course >>= f) (x >>= g) := by
  intro patience?
  have htrail := e.trail_ask x ⟨trail, patience?⟩
  rw [goFrom_ask_bind, Course.goFrom_bind, Course.goFrom_bind, h patience?]
  cases hx : (e.ask x).goFrom ⟨trail, patience?⟩ with
  | mk result after =>
    rw [hx] at htrail
    obtain ⟨_, left?⟩ := after
    subst htrail
    cases result with
    | error fault => rfl
    | ok a => exact hf a left?

/-- What is asked first is asked in the course of the walk. -/
theorem ask_bind (x : Inquiry α) {f : α → Course β} {g : α → Inquiry β}
    (hf : ∀ a, e.Follows trail (f a) (g a)) : e.Follows trail (e.ask x >>= f) (x >>= g) :=
  (ask x).bind hf

theorem forM {items : List α} {f : α → Course Unit} {g : α → Inquiry Unit}
    (h : ∀ item, e.Follows trail (f item) (g item)) :
    e.Follows trail (items.forM f) (items.forM g) := by
  induction items with
  | nil => exact done ()
  | cons item items ih => exact (h item).bind fun _ => ih

/-- A step of the walk: the trail that is left behind on the way back is the one before. -/
theorem descend (site : Site) (stored : Object) {course : Course Unit}
    {inner : Trail → Inquiry Unit}
    (h : ¬ e.maxDepth ≤ trail.depth →
      e.Follows (trail.push stored) course (inner (trail.push stored))) :
    e.Follows trail (e.descend site stored course) (e.within trail site stored inner) := by
  intro patience?
  rw [goFrom_descend]
  unfold within
  split
  · rfl
  · rename_i hgoes
    simp only [Bool.or_eq_true, decide_eq_true_eq, not_or] at hgoes
    have htrail := e.trail_ask (inner (trail.push stored)) ⟨trail.push stored, patience?⟩
    rw [h hgoes.2 patience?, e.goFrom_ask_on _ (trail.push stored) trail]
    dsimp only
    rw [htrail, Trail.pop_push]

end Follows

namespace EnterFollows

variable {entrance : Entrance} {enter : Enter}

theorem clause (h : e.EnterFollows trail entrance enter) (container : String) (header : Dict)
    (clause : Clause) :
    e.Follows trail (e.clause entrance container header clause)
      (clause.check e.profile enter container header) := by
  cases clause with
  | enter rule schema =>
    refine .ask_bind _ fun found? => ?_
    cases found? with
    | none => exact .done ()
    | some entry =>
      by_cases hkind : entry.value.kind = schema.kind
      · simpa only [if_pos hkind] using h _ entry schema
      · simpa only [if_neg hkind] using .done ()
  | enterWith rule companion label schema =>
    refine .ask_bind _ fun found? => .ask_bind _ fun companion? => ?_
    cases found? with
    | none => exact .done ()
    | some entry =>
      cases companion? with
      | none => exact .fail _
      | some _ => exact h _ entry schema
  | _ => exact .ask _

theorem sheet (h : e.EnterFollows trail entrance enter) (sheet : Sheet) (header : Dict) :
    e.Follows trail (e.sheet entrance sheet header) (sheet.check e.profile enter header) :=
  .forM fun clause => h.clause sheet.container header clause

theorem image (h : e.EnterFollows trail entrance enter) (use : ImageUse) (header : Dict) :
    e.Follows trail (e.image entrance use header) (judgeImage e.profile enter use header) :=
  .ask_bind _ fun _ => .ask_bind _ fun _ => h.sheet _ header

theorem external (h : e.EnterFollows trail entrance enter) (hint : Hint) (header : Dict) :
    e.Follows trail (e.external entrance hint header)
      (judgeExternal e.profile enter hint header) := by
  refine .ask_bind _ fun designation => ?_
  cases designation with
  | form => exact h.sheet Grammar.form header
  | image => exact h.image .primary header
  | _ => exact .fail _

theorem alternate (h : e.EnterFollows trail entrance enter) (container : String) (item : Object) :
    e.Follows trail (e.alternate entrance container item)
      (judgeAlternateAt enter container item) := by
  refine .ask_bind _ fun value? => ?_
  rcases value? with _ | value
  · exact .done ()
  · cases value with
    | stream _ => exact h _ _ _
    | dictionary _ => exact h _ _ _
    | _ => exact .ask _

theorem member (h : e.EnterFollows trail entrance enter) (site : Site) (hint : Hint)
    (required : Bool) (stored : Object) :
    e.Follows trail (e.member entrance site hint required stored)
      (judgeMemberAt enter site hint required stored) := by
  refine .ask_bind _ fun value? => ?_
  rcases value? with _ | value
  · exact .done ()
  · cases value with
    | stream _ => exact h _ _ _
    | _ => exact .ask _

theorem prepress (h : e.EnterFollows trail entrance enter) (entries : Dict) :
    e.Follows trail (e.prepress entrance entries) (judgePrepress enter entries) := by
  match entries with
  | [] => exact .fail _
  | [(version, stored)] =>
    simp only [Examiner.prepress, judgePrepress]
    cases Grammar.prepressTable? (Text.Utf8.decodeLossy version) with
    | none => exact .fail _
    | some table =>
      refine .ask_bind _ fun value => ?_
      cases value with
      | dictionary _ => exact h _ _ _
      | _ => exact .ask _
  | _ :: _ :: _ => exact .fail _

/-- What is entered by the way is judged as it is when it is entered from the trail. -/
theorem judge (h : e.EnterFollows trail entrance enter) (schema : Schema) (value : Object) :
    e.Follows trail (e.judge entrance schema value)
      (PdfConformance.judge e.profile enter schema value) := by
  cases schema with
  | external hint =>
    cases value with
    | stream header => exact h.external hint header
    | _ => exact .done ()
  | image use =>
    cases value with
    | stream header => exact h.image use header
    | _ => exact .done ()
  | alternates =>
    cases value with
    | array items => exact .forM fun item => h.alternate _ item
    | _ => exact .done ()
  | alternateImage =>
    cases value with
    | dictionary entries => exact h.sheet Grammar.alternateImage entries
    | _ => exact .done ()
  | resources =>
    cases value with
    | dictionary entries => exact h.sheet Grammar.resources entries
    | _ => exact .done ()
  | externals =>
    cases value with
    | dictionary entries => exact .forM fun member => h.member _ .any false member.2
    | _ => exact .done ()
  | pieceInfo =>
    cases value with
    | dictionary entries => exact .forM fun piece => .ask _
    | _ => exact .done ()
  | prepress =>
    cases value with
    | dictionary entries => exact h.prepress entries
    | _ => exact .done ()
  | table table =>
    cases value with
    | dictionary entries => exact .ask _
    | _ => exact .done ()
  | barred site reason =>
    cases value with
    | stream header => exact .fail _
    | _ => exact .done ()

end EnterFollows

/-- The run: entering follows entering from the trail, as long as there are levels for what the limit
leaves. The induction is on the levels, over all trails. -/
theorem enter_follows {levels : Nat} (hlevels : e.maxDepth ≤ trail.depth + levels) :
    e.EnterFollows trail (e.enter levels) (e.deeper trail) := by
  induction levels generalizing trail with
  | zero =>
    intro site entry schema patience?
    have hleft : e.maxDepth - trail.depth = 0 := Nat.sub_eq_zero_of_le hlevels
    simp only [deeper, hleft]
    rfl
  | succ levels ih =>
    intro site entry schema
    rw [deeper_eq]
    refine .descend site entry.stored fun _ => ?_
    have hinner : e.maxDepth ≤ (trail.push entry.stored).depth + levels := by
      simp only [Trail.push]
      omega
    exact (ih hinner).judge schema entry.value

/-- Every routine goes as its inquiry does. -/
theorem perform_follows (routine : Routine) :
    e.Follows trail (e.perform routine) (e.inquiry trail routine) := by
  have h (trail : Trail) : e.EnterFollows trail (e.enter e.maxDepth) (e.deeper trail) :=
    enter_follows (Nat.le_add_left e.maxDepth trail.depth)
  cases routine with
  | member site hint required stored => exact (h trail).member site hint required stored
  | external hint header => exact (h trail).external hint header
  | image use header => exact (h trail).image use header
  | mask owner container entry =>
    obtain ⟨stored, value⟩ := entry
    cases value with
    | stream header => exact h trail _ _ _
    | array items => exact .done ()
    | _ => exact .ask _
  | alternates owner container entry =>
    obtain ⟨stored, value⟩ := entry
    cases value with
    | array items =>
      by_cases howner : owner = .primary
      · simp only [perform, alternates, inquiry, if_pos howner]
        exact .descend _ stored fun _ => .forM fun item => (h _).alternate container item
      · simp only [perform, alternates, inquiry, if_neg howner]
        exact .ask _
    | _ => exact .done ()
  | alternateImage entries => exact (h trail).sheet Grammar.alternateImage entries
  | form header => exact (h trail).sheet Grammar.form header
  | resources entries => exact (h trail).sheet Grammar.resources entries
  | prepress entries => exact (h trail).prepress entries
  | pieceInfo entry =>
    obtain ⟨stored, value⟩ := entry
    cases value with
    | dictionary entries => exact h trail _ _ _
    | _ => exact .done ()

/-! ## From a shorter trail -/

section Shorter

variable {trail' : Trail}

theorem deeper_agree (hwithin : trail'.within ⊆ trail.within) (hdepth : trail'.depth ≤ trail.depth) :
    Enter.AgreeUpTo Fault.IsEndless (e.deeper trail) (e.deeper trail') :=
  .of_subset e.profile (Nat.sub_le_sub_left hdepth e.maxDepth) hwithin
    fun site id? depth bound => ⟨site, id?, depth, bound, rfl⟩

theorem within_agree (hwithin : trail'.within ⊆ trail.within) (hdepth : trail'.depth ≤ trail.depth)
    (site : Site) (stored : Object) {inner : Trail → Inquiry Unit}
    (h : AgreeUpTo Fault.IsEndless Eq (inner (trail.push stored)) (inner (trail'.push stored))) :
    AgreeUpTo Fault.IsEndless Eq (e.within trail site stored inner)
      (e.within trail' site stored inner) := by
  unfold within
  split
  · exact .excused _ (isEndless_stop trail site stored)
  · rename_i hgoes
    simp only [Bool.or_eq_true, decide_eq_true_eq, not_or, Bool.not_eq_true] at hgoes
    have hrevisits := Trail.revisits_eq_false_of_subset hwithin hgoes.1
    have hlimit : ¬ e.maxDepth ≤ trail'.depth := fun hle => hgoes.2 (Nat.le_trans hle hdepth)
    simpa [hrevisits, hlimit] using h

theorem judgeAlternateAt_agree {excused : Fault → Prop} {enter enter' : Enter}
    (he : Enter.AgreeUpTo excused enter enter') (container : String) (item : Object) :
    AgreeUpTo excused Eq (judgeAlternateAt enter container item)
      (judgeAlternateAt enter' container item) := by
  refine (AgreeUpTo.refl _).bind_eq fun value? => ?_
  rcases value? with _ | value
  · exact .refl _
  · cases value with
    | stream header => exact he _ (.refl _) (by simp [Schema.rules])
    | dictionary entries => exact he _ (.refl _) (by simp [Schema.rules])
    | _ => exact .refl _

theorem inquiry_agree (hwithin : trail'.within ⊆ trail.within)
    (hdepth : trail'.depth ≤ trail.depth) (routine : Routine) :
    AgreeUpTo Fault.IsEndless Eq (e.inquiry trail routine) (e.inquiry trail' routine) := by
  have he : Enter.AgreeUpTo Fault.IsEndless (e.deeper trail) (e.deeper trail') :=
    deeper_agree hwithin hdepth
  have hp : Profile.Precedes Fault.IsEndless e.profile e.profile := .refl e.profile
  cases routine with
  | member site hint required stored =>
    refine (AgreeUpTo.refl _).bind_eq fun value? => ?_
    rcases value? with _ | value
    · exact .refl _
    · cases value with
      | stream header => exact he _ (.refl _) (by simp [Schema.rules])
      | _ => exact .refl _
  | external hint header => exact hp.judgeExternal he hint header
  | image use header => exact hp.judgeImage he use header
  | mask owner container entry =>
    obtain ⟨stored, value⟩ := entry
    cases value with
    | stream header => exact he _ (.refl _) (by split <;> simp [Schema.rules])
    | _ => exact .refl _
  | alternates owner container entry =>
    obtain ⟨stored, value⟩ := entry
    cases value with
    | array items =>
      by_cases howner : owner = .primary
      · simp only [inquiry, if_pos howner]
        refine within_agree hwithin hdepth _ stored (.forM fun item _ => ?_)
        have hpushed : (trail'.push stored).depth ≤ (trail.push stored).depth :=
          Nat.succ_le_succ hdepth
        have he := deeper_agree (e := e) (Trail.push_subset hwithin stored) hpushed
        exact judgeAlternateAt_agree he container item
      · simp only [inquiry, if_neg howner]
        exact .refl _
    | _ => exact .refl _
  | alternateImage entries => exact hp.checkSheet he Grammar.isTimely_alternateImage entries
  | form header => exact hp.checkSheet he Grammar.isTimely_form header
  | resources entries => exact hp.checkSheet he Grammar.isTimely_resources entries
  | prepress entries => exact Profile.Precedes.judgePrepress he entries
  | pieceInfo entry =>
    obtain ⟨stored, value⟩ := entry
    cases value with
    | dictionary entries => exact he _ (.refl _) (by simp [Schema.rules])
    | _ => exact .refl _

end Shorter

/-! ## The routines in the judgement -/

section Judgement

variable (e) (trail)

/-- What keeps the rule is handed on to a routine; what is absent is passed over. -/
def handOn (rule : Rule) (container : String) (header : Dict) (routine : Entry → Routine) :
    Inquiry Unit := do
  match ← rule.check e.profile container header with
  | some entry => e.inquiry trail (routine entry)
  | none => return

/-- The judgement is made of the routines: where it comes to a part that one of them is for, it makes
the inquiry of that routine. -/
structure JudgesByRoutines : Prop where
  /-- A caller's external object must not lead nowhere, and is the first on the trail. -/
  caller (hint : Hint) (object : Object) :
    externalObject e.profile e.maxDepth hint object =
      e.inquiry .start (.member ⟨"caller", "XObject"⟩ hint true object)
  callerResources (object : Object) :
    resourceDictionary e.profile e.maxDepth object = do
      let site : Site := ⟨"caller", "Resources"⟩
      match ← valueOf site object with
      | .dictionary entries =>
        e.within .start site object fun trail => e.inquiry trail (.resources entries)
      | value => unexpected site .dictionary value
  /-- One level deeper the value is judged by its schema. -/
  entered (trail : Trail) (site : Site) (entry : Entry) (schema : Schema) :
    e.deeper trail site entry schema =
      e.within trail site entry.stored fun trail =>
        PdfConformance.judge e.profile (e.deeper trail) schema entry.value
  members (trail : Trail) (entries : Dict) :
    PdfConformance.judge e.profile (e.deeper trail) .externals (.dictionary entries) =
      entries.forM fun member => e.inquiry trail
        (.member ⟨"xObjectResourceDict", Text.Utf8.decodeLossy member.1⟩ .any false member.2)
  external (trail : Trail) (hint : Hint) (header : Dict) :
    PdfConformance.judge e.profile (e.deeper trail) (.external hint) (.stream header) =
      e.inquiry trail (.external hint header)
  /-- What an external object is designated as decides on the routine. -/
  form (trail : Trail) (hint : Hint) (header : Dict) (patience? : Option Nat) :
    (designate e.profile hint header).run e.find = .ok .form →
      (e.inquiry trail (.external hint header)).verdict e.find patience? =
        (designate e.profile hint header >>= fun _ =>
          e.inquiry trail (.form header)).verdict e.find patience?
  image (trail : Trail) (use : ImageUse) (header : Dict) :
    PdfConformance.judge e.profile (e.deeper trail) (.image use) (.stream header) =
      e.inquiry trail (.image use header)
  /-- What an image that is no stencil does about its mask. -/
  mask (trail : Trail) (use : ImageUse) (header : Dict) (patience? : Option Nat) :
    ((Grammar.maskClause use false).check e.profile (e.deeper trail) use.container header).verdict
        e.find patience? =
      (e.handOn trail Grammar.mask use.container header (.mask use use.container)).verdict
        e.find patience?
  alternates (trail : Trail) (use : ImageUse) (header : Dict) (patience? : Option Nat) :
    ((Grammar.alternatesClause use).check e.profile (e.deeper trail) use.container header).verdict
        e.find patience? =
      (e.handOn trail Grammar.alternates use.container header
        (.alternates use use.container)).verdict e.find patience?
  alternateImage (trail : Trail) (entries : Dict) :
    PdfConformance.judge e.profile (e.deeper trail) .alternateImage (.dictionary entries) =
      e.inquiry trail (.alternateImage entries)
  resources (trail : Trail) (entries : Dict) :
    PdfConformance.judge e.profile (e.deeper trail) .resources (.dictionary entries) =
      e.inquiry trail (.resources entries)
  prepress (trail : Trail) (entries : Dict) :
    PdfConformance.judge e.profile (e.deeper trail) .prepress (.dictionary entries) =
      e.inquiry trail (.prepress entries)
  /-- What a form that is dated does about the data of applications. -/
  pieceInfo (trail : Trail) (rule companion : Rule) (header : Dict) (patience? : Option Nat) :
    .enterWith rule companion Grammar.pieceInfo .pieceInfo ∈ Grammar.form.clauses →
      ((Clause.enterWith rule companion Grammar.pieceInfo .pieceInfo).check e.profile
          (e.deeper trail) Grammar.form.container header).verdict e.find patience? =
        Inquiry.verdict e.find patience? do
          let entry? ← rule.check e.profile Grammar.form.container header
          let companion? ← companion.check e.profile Grammar.form.container header
          match entry?, companion? with
          | some entry, some _ => e.inquiry trail (.pieceInfo entry)
          | some _, none =>
            .fail (.missingCompanion ⟨Grammar.form.container, companion.key⟩ rule.key)
          | none, _ => return

/-- Entries are handed on to the routine, if the values that the rule accepts are judged by it. -/
theorem verdict_enter_eq {rule : Rule} {schema : Schema} {routine : Entry → Routine} {c : String}
    (h : ∀ entry, rule.Accepts e.find e.profile.mode entry.value →
      (if entry.value.kind = schema.kind then e.deeper trail ⟨c, rule.key⟩ entry schema
        else return) = e.inquiry trail (routine entry))
    (header : Dict) (patience? : Option Nat) :
    ((Clause.enter rule schema).check e.profile (e.deeper trail) c header).verdict e.find patience? =
      (e.handOn trail rule c header routine).verdict e.find patience? := by
  unfold Clause.check handOn
  refine verdict_bind_congr (fun found? hfound => ?_) patience?
  cases found? with
  | none => rfl
  | some entry =>
    have haccepts := (Rule.run_check_eq_some.mp hfound).2.2
    exact h entry haccepts

theorem verdict_maskClause_eq (use : ImageUse) (header : Dict) (patience? : Option Nat) :
    ((Grammar.maskClause use false).check e.profile (e.deeper trail) use.container header).verdict
        e.find patience? =
      (e.handOn trail Grammar.mask use.container header (.mask use use.container)).verdict
        e.find patience? := by
  have hmask (entry : Entry) (schema : Schema)
      (h : Grammar.mask.Accepts e.find e.profile.mode entry.value)
      (hschema : schema = if use = .explicitMask then
        .barred ⟨use.container, Grammar.mask.key⟩ .maskedMask else .image .explicitMask) :
      (if entry.value.kind = schema.kind then
          e.deeper trail ⟨use.container, Grammar.mask.key⟩ entry schema
        else return) = e.inquiry trail (.mask use use.container entry) := by
    have hkind : schema.kind = .stream := by
      rw [hschema]
      split <;> rfl
    obtain ⟨stored, value⟩ := entry
    rcases List.mem_pair.mp h.ofKind with hstream | harray
    · obtain ⟨inner, rfl⟩ := Object.eq_stream_of_kind hstream
      simp [inquiry, hkind, ← hschema, Object.kind]
    · obtain ⟨items, rfl⟩ := Object.eq_array_of_kind harray
      simp [inquiry, hkind, Object.kind]
  by_cases huse : use = .explicitMask
  · simp only [Grammar.maskClause, if_pos huse, Bool.false_eq_true, if_false]
    exact e.verdict_enter_eq trail (fun entry h => hmask entry _ h (by rw [if_pos huse])) header
      patience?
  · simp only [Grammar.maskClause, if_neg huse, Bool.false_eq_true, if_false]
    exact e.verdict_enter_eq trail (fun entry h => hmask entry _ h (by rw [if_neg huse])) header
      patience?

theorem verdict_alternatesClause_eq (use : ImageUse) (header : Dict) (patience? : Option Nat) :
    ((Grammar.alternatesClause use).check e.profile (e.deeper trail) use.container header).verdict
        e.find patience? =
      (e.handOn trail Grammar.alternates use.container header
        (.alternates use use.container)).verdict e.find patience? := by
  have harray {value : Object} (h : Grammar.alternates.Accepts e.find e.profile.mode value) :
      ∃ items, value = .array items :=
    Object.eq_array_of_kind (List.mem_singleton.mp h.ofKind)
  by_cases huse : use = .primary
  · subst huse
    refine e.verdict_enter_eq trail (fun entry h => ?_) header patience?
    obtain ⟨stored, value⟩ := entry
    obtain ⟨items, rfl⟩ := harray h
    simp only [e.deeper_eq trail]
    rfl
  · simp only [Grammar.alternatesClause, if_neg huse, Clause.check]
    refine verdict_bind_congr (fun found? hfound => ?_) patience?
    cases found? with
    | none => rfl
    | some entry =>
      obtain ⟨stored, value⟩ := entry
      obtain ⟨items, rfl⟩ := harray (Rule.run_check_eq_some.mp hfound).2.2
      simp only [inquiry, if_neg huse]
      rfl

theorem verdict_pieceInfoClause_eq {rule companion : Rule}
    (hclause : .enterWith rule companion Grammar.pieceInfo .pieceInfo ∈ Grammar.form.clauses)
    (header : Dict) (patience? : Option Nat) :
    ((Clause.enterWith rule companion Grammar.pieceInfo .pieceInfo).check e.profile
        (e.deeper trail) Grammar.form.container header).verdict e.find patience? =
      Inquiry.verdict e.find patience? do
        let entry? ← rule.check e.profile Grammar.form.container header
        let companion? ← companion.check e.profile Grammar.form.container header
        match entry?, companion? with
        | some entry, some _ => e.inquiry trail (.pieceInfo entry)
        | some _, none =>
          .fail (.missingCompanion ⟨Grammar.form.container, companion.key⟩ rule.key)
        | none, _ => return := by
  obtain ⟨rfl, rfl⟩ : rule = (Rule.optional "PieceInfo" .dictionary |> Rule.since .v1_3) ∧
      companion = (Rule.optional "LastModified" .date |> Rule.since .v1_3) := by
    simpa [Grammar.form, Grammar.metadata, Grammar.prepress, Grammar.optionalContent] using hclause
  refine verdict_bind_congr (fun entry? hentry => ?_) patience?
  cases entry? with
  | none => rfl
  | some entry =>
    obtain ⟨stored, value⟩ := entry
    have hkind : value.kind = .dictionary :=
      List.mem_singleton.mp (Rule.run_check_eq_some.mp hentry).2.2.ofKind
    obtain ⟨data, rfl⟩ := Object.eq_dictionary_of_kind hkind
    refine congrArg (Rule.check _ _ _ _ >>= ·) (funext fun companion? => ?_)
    cases companion? with
    | none => rfl
    | some _ => rfl

theorem judgesByRoutines : e.JudgesByRoutines where
  caller _ _ := rfl
  callerResources object := by
    unfold resourceDictionary
    refine congrArg (valueOf _ object >>= ·) (funext fun value => ?_)
    cases value with
    | dictionary entries => exact e.deeper_eq .start _ ⟨object, .dictionary entries⟩ .resources
    | _ => rfl
  entered := e.deeper_eq
  members _ _ := rfl
  external _ _ _ := rfl
  form trail hint header patience? hform := by
    refine verdict_bind_congr (fun designation hdesignation => ?_) patience?
    cases Except.ok.inj (hform.symm.trans hdesignation)
    rfl
  image _ _ _ := rfl
  mask := e.verdict_maskClause_eq
  alternates := e.verdict_alternatesClause_eq
  alternateImage _ _ := rfl
  resources _ _ := rfl
  prepress _ _ := rfl
  pieceInfo trail _ _ header patience? hclause :=
    e.verdict_pieceInfoClause_eq trail hclause header patience?

end Judgement

end Examiner

/-- A routine leaves the trail as it was, whatever comes of it, and comes to what its inquiry does, of
which the judgement is made. Begun from a trail with nothing else on it, and at no greater depth, it
comes to the same, unless the walk from the longer trail would not have ended. -/
theorem perform_from_shorter_trail (e : Examiner) (routine : Routine) (patience? : Option Nat)
    {trail trail' : Trail} (hwithin : trail'.within ⊆ trail.within)
    (hdepth : trail'.depth ≤ trail.depth) :
    let result := (e.perform routine).goFrom ⟨trail, patience?⟩
    let result' := (e.perform routine).goFrom ⟨trail', patience?⟩
    (¬ Overruns result.1 → result'.1 = result.1) ∧
      result.2.trail = trail ∧ result'.2.trail = trail' ∧
      result.1 = (e.inquiry trail routine).verdict e.find patience? ∧ e.JudgesByRoutines := by
  intro result result'
  have hresult : result = (e.ask (e.inquiry trail routine)).goFrom ⟨trail, patience?⟩ :=
    Examiner.perform_follows routine patience?
  have hresult' : result' = (e.ask (e.inquiry trail' routine)).goFrom ⟨trail', patience?⟩ :=
    Examiner.perform_follows routine patience?
  rw [hresult, hresult', Examiner.trail_ask, Examiner.trail_ask, Examiner.verdict_ask,
    Examiner.verdict_ask]
  refine ⟨fun hends => ?_, rfl, rfl, rfl, e.judgesByRoutines⟩
  have hagree := Examiner.inquiry_agree (e := e) hwithin hdepth routine
  exact (hagree.verdict_eq e.find patience?).resolve_right hends

/-- An image with a soft mask that has no height. -/
def veiled : Document where
  header := "1.7"
  trailer := []
  objects := .ofList [
    (⟨1, 0⟩, .stream (tagged ++ [
      (Text.Utf8.encode "Height", .integer 1),
      (Text.Utf8.encode "ImageMask", .boolean true),
      (Text.Utf8.encode "SMask", .reference ⟨2, 0⟩)])),
    (⟨2, 0⟩, .stream tagged)]
where
  tagged : Dict := [
    (Text.Utf8.encode "Subtype", .name (Text.Utf8.encode "Image")),
    (Text.Utf8.encode "Width", .integer 1)]

/-- From a trail with the soft mask on it the image is refused for another reason. -/
theorem perform_from_shorter_trail_veiled :
    let e : Examiner := ⟨veiled.get?, ⟨.v1_7, .strict⟩, 4⟩
    let image := e.perform (.member ⟨"xObjectResourceDict", "Im0"⟩ .any false (.reference ⟨1, 0⟩))
    image.goFrom ⟨⟨[⟨7, 0⟩], 2⟩, none⟩ =
        (.error (.missingEntry ⟨"softMaskStream", "Height"⟩), ⟨⟨[⟨7, 0⟩], 2⟩, none⟩) ∧
      (image.goFrom ⟨.start, none⟩).1 = .error (.missingEntry ⟨"softMaskStream", "Height"⟩) ∧
      (image.goFrom ⟨.start, none⟩).2.trail = .start ∧
      image.goFrom ⟨⟨[⟨2, 0⟩], 0⟩, none⟩ =
        (.error (.endless ⟨"imageStream", "SMask"⟩ (some ⟨2, 0⟩) 1 .cycle), ⟨⟨[⟨2, 0⟩], 0⟩, none⟩) := by
  intro e image
  have hlonger : image.goFrom ⟨⟨[⟨7, 0⟩], 2⟩, none⟩ =
      (.error (.missingEntry ⟨"softMaskStream", "Height"⟩), ⟨⟨[⟨7, 0⟩], 2⟩, none⟩) := by rfl
  have hends : ¬ Overruns (image.goFrom ⟨⟨[⟨7, 0⟩], 2⟩, none⟩).1 := by
    rw [hlonger]
    rintro ⟨fault, hfault, site, id?, depth, bound, rfl⟩
    cases hfault
  have hshorter := perform_from_shorter_trail e
    (.member ⟨"xObjectResourceDict", "Im0"⟩ .any false (.reference ⟨1, 0⟩)) none
    (show Trail.start.within ⊆ (Trail.mk [⟨7, 0⟩] 2).within from List.nil_subset _)
    (show Trail.start.depth ≤ (Trail.mk [⟨7, 0⟩] 2).depth from Nat.zero_le 2)
  exact ⟨hlonger, (hshorter.1 hends).trans (congrArg Prod.fst hlonger), hshorter.2.2.1, by rfl⟩

end PdfConformance
