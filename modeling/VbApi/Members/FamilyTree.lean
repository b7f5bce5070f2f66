import VbApi.Members.StatusRules
import VbApi.Foundations.Forest

/-! The family tree: the parents form a forest, and a parent is of the same organisation when it is
set. -/
namespace VbApi.Members
open VbApi.Foundations Parents
open VbApi.Standesdb (Uuid)

/-- The parent of every member. -/
def parents (db : Database) : Parents Uuid :=
  fun id => (db.members.get? id).map fun m => m.columns.parentId

/-- The parents form a forest, and ids are used once. -/
structure FamilyTree (db : Database) : Prop where
  forest : (parents db).Forest
  used : ∀ id m, db.members.get? id=some m → id < db.nextUuid

section Walk
variable {db : Database} {memberId : Uuid}

lemma parents_eq_some {id : Uuid} {m : Member} (h : db.members.get? id=some m) :
    parents db id=some m.columns.parentId := by
  rw [parents,h,Option.map_some]

/-- The walk is above everything it has seen. -/
def Above (P : Parents Uuid) (seen : List Uuid) (p : Option Uuid) : Prop :=
  ∀ x ∈ seen, ∃ q, P x=some q ∧ ∀ k, p=some k → P.Below k q

/-- In a forest the walk does not come back to where it has been. -/
lemma Above.notMem {P : Parents Uuid} {seen : List Uuid} {k : Uuid} (hforest : P.Forest)
    (h : Above P seen (some k)) : k ∉ seen := by
  intro hk
  obtain ⟨q,hq,hbelow⟩ := h k hk
  obtain ⟨q',hq',-,hnot⟩ := (hforest.ends hq).not_below .here
  rw [hq,Option.some.injEq] at hq'
  subst hq'
  exact hnot (hbelow k rfl)

lemma Above.up {P : Parents Uuid} {seen : List Uuid} {k : Uuid} {p : Option Uuid}
    (h : Above P seen (some k)) (hk : P k=some p) : Above P (k::seen) p := by
  intro x hx
  obtain rfl | hx := List.mem_cons.mp hx
  · refine ⟨p,hk,?_⟩
    rintro k' rfl
    exact .here
  · obtain ⟨q,hq,hbelow⟩ := h x hx
    refine ⟨q,hq,?_⟩
    rintro k' rfl
    exact Below.trans (.up hk .here) (hbelow k rfl)

/-- The walk finds a member that is on the chain of parents. -/
lemma climbs_of_below (hforest : (parents db).Forest) (hmember : (parents db memberId).isSome)
    {p : Option Uuid} (h : (parents db).Below memberId p) (seen : List Uuid)
    (hseen : Above (parents db) seen p) : climbs db.members memberId seen p=true := by
  induction h generalizing seen with
  | here =>
    have hnot := hseen.notMem hforest
    rw [climbs]
    split
    · rename_i hnone
      simp [parents,hnone] at hmember
    · simp [hnot]
  | @up k p hparent _ ih =>
    have hnot := hseen.notMem hforest
    rw [climbs]
    split
    · rename_i hnone
      simp [parents,hnone] at hparent
    · rename_i m hm
      rw [parents_eq_some hm,Option.some.injEq] at hparent
      subst hparent
      rw [dif_neg hnot]
      split_ifs
      · rfl
      · exact ih _ (hseen.up (parents_eq_some hm))

/-- What `validate_parent_id` lets through. -/
lemma parentValid_iff {data : MemberSaveRequest} {excluded : Option Uuid} :
    ParentValid db data excluded ↔ ∀ p, data.columns.parentId=some p →
      ∃ parent, db.members.get? p=some parent ∧
        parent.columns.text .orgId=data.columns.text .orgId ∧
        ∀ memberId, excluded=some memberId → climbs db.members memberId [] (some p)=false := by
  unfold ParentValid validateParentId
  cases data.columns.parentId with
  | none => simp
  | some p =>
    simp only [Option.some.injEq,forall_eq']
    cases db.members.get? p with
    | none => simp
    | some parent =>
      cases excluded <;> simp [isSelfOrAncestor]

end Walk

section Steps
variable {db db' : Database} {memberId : Uuid} {m : Member}

lemma parents_putMember : parents (putMember memberId m db)=
    Function.update (parents db) memberId (some m.columns.parentId) := by
  funext id
  simp only [parents,putMember,Dict.get?_set,Function.update_apply]
  split_ifs <;> rfl

/-- A write that leaves the parent changes nothing here. -/
lemma FamilyTree.put_same (h : FamilyTree db) {m' : Member} (hm' : db.members.get? memberId=some m')
    (hparent : m.columns.parentId=m'.columns.parentId) : FamilyTree (putMember memberId m db) where
  forest := by
    rw [parents_putMember,hparent,← parents_eq_some hm',Function.update_eq_self]
    exact h.forest
  used id m₁ hm₁ := by
    rw [putMember,Dict.get?_set] at hm₁
    split_ifs at hm₁ with hid
    · subst hid
      exact h.used id m' hm'
    · exact h.used id m₁ hm₁

/-- The chain of a valid parent ends. -/
lemma FamilyTree.ends (h : FamilyTree db) {data : MemberSaveRequest} {excluded : Option Uuid}
    (hvalid : ParentValid db data excluded) : (parents db).Ends data.columns.parentId := by
  cases hp : data.columns.parentId with
  | none => exact .root
  | some p =>
    obtain ⟨parent,hparent,-⟩ := parentValid_iff.mp hvalid p hp
    exact h.forest.ends (parents_eq_some hparent)

/-- A member is put below a valid parent. -/
lemma FamilyTree.forest_reparent (h : FamilyTree db) {data : MemberSaveRequest}
    (hm : db.members.get? memberId=some m) (hvalid : ParentValid db data (some memberId)) :
    Forest (Function.update (parents db) memberId (some data.columns.parentId)) := by
  have hthere : (parents db memberId).isSome := by rw [parents_eq_some hm]; rfl
  have hmove : Function.update (parents db) memberId (some data.columns.parentId)=
      (parents db).move [memberId] data.columns.parentId := by
    funext id
    by_cases hid : id=memberId
    · subst hid
      rw [Function.update_self,move_of_mem (List.mem_singleton_self id) hthere]
    · rw [Function.update_of_ne hid,move_of_notMem (by simpa using hid)]
  rw [hmove,forest_move_iff h.forest (h.ends hvalid)]
  · intro k hk hbelow
    obtain rfl := List.mem_singleton.mp hk
    cases hp : data.columns.parentId with
    | none =>
      rw [hp] at hbelow
      cases hbelow
    | some p =>
      obtain ⟨parent,-,-,hclimbs⟩ := parentValid_iff.mp hvalid p hp
      rw [hp] at hbelow
      have htrue := climbs_of_below h.forest hthere hbelow [] (by simp [Above])
      rw [hclimbs k rfl] at htrue
      cases htrue
  · intro k hk
    obtain rfl := List.mem_singleton.mp hk
    exact hthere

/-- Every call keeps the family tree. -/
theorem FamilyTree.effect (h : FamilyTree db) (heffect : Effect db db') : FamilyTree db' := by
  cases heffect with
  | requests changeRequests later => exact ⟨h.forest,fun id m hm => (h.used id m hm).trans_le later⟩
  | @saved moment memberId existing data userId changeRequests nextUuid saves later used =>
    constructor
    · change (parents (putMember memberId (savedMember moment existing data userId) db)).Forest
      rw [parents_putMember]
      change Forest (Function.update (parents db) memberId (some data.columns.parentId))
      cases existing with
      | none =>
        obtain rfl := saves.fresh rfl
        obtain hvalid | ⟨m,hm,-⟩ := saves.parent
        · apply h.forest.insert _ (h.ends hvalid)
          rw [parents,Option.map_eq_none_iff,Option.eq_none_iff_forall_ne_some]
          intro m hm
          exact absurd (h.used _ m hm) (lt_irrefl _)
        · cases hm
      | some m =>
        have hfound := saves.found m rfl
        obtain hvalid | ⟨m',hm',hsame⟩ := saves.parent
        · exact h.forest_reparent hfound hvalid
        · cases hm'
          rw [hsame,← parents_eq_some hfound,Function.update_eq_self]
          exact h.forest
    · intro id m hm
      change (putMember memberId _ db).members.get? id=some m at hm
      change id < nextUuid
      rw [putMember,Dict.get?_set] at hm
      split_ifs at hm with hid
      · subst hid
        cases existing with
        | none =>
          rw [saves.fresh rfl]
          exact used rfl
        | some m' => exact (h.used _ m' (saves.found m' rfl)).trans_le later
      · exact (h.used id m hm).trans_le later
  | toggled moment found => exact h.put_same found rfl
  | passwordReset moment passwordHash found => exact h.put_same found rfl

/-- A parent that a call sets is there and of the same organisation. -/
lemma Effect.parent_set (heffect : Effect db db') {id p : Uuid} {m' : Member}
    (hm' : db'.members.get? id=some m') (hp : m'.columns.parentId=some p)
    (hnew : ∀ m, db.members.get? id=some m → m.columns.parentId ≠ some p) :
    ∃ parent, db.members.get? p=some parent ∧
      parent.columns.text .orgId=m'.columns.text .orgId := by
  have hput : ∀ {memberId m}, (putMember memberId m db).members.get? id=some m' →
      id=memberId ∧ m'=m := by
    intro memberId m hget
    rw [putMember,Dict.get?_set] at hget
    split_ifs at hget with hid
    · exact ⟨hid,(Option.some.inj hget).symm⟩
    · exact absurd hp (hnew m' hget)
  cases heffect with
  | requests => exact absurd hp (hnew m' hm')
  | @saved moment memberId existing data userId changeRequests nextUuid saves =>
    obtain ⟨rfl,rfl⟩ := hput hm'
    change data.columns.parentId=some p at hp
    obtain hvalid | ⟨m,rfl,hsame⟩ := saves.parent
    · obtain ⟨parent,hparent,horg,-⟩ := parentValid_iff.mp hvalid p hp
      refine ⟨parent,hparent,horg.trans ?_⟩
      exact (normalise_text data.columns .orgId).symm
    · exact absurd (hsame.symm.trans hp) (hnew m (saves.found m rfl))
  | @toggled moment memberId m found =>
    obtain ⟨rfl,rfl⟩ := hput hm'
    exact absurd hp (hnew m found)
  | @passwordReset moment memberId m passwordHash found =>
    obtain ⟨rfl,rfl⟩ := hput hm'
    exact absurd hp (hnew m found)

end Steps

lemma familyTree_runCalls (env : Environment) (roles : List Role) (stateIds : List PyText)
    (badgeIds keyIds : List Uuid) (nextUuid : Uuid) (calls : List Call) :
    FamilyTree (runCalls env (emptyDatabase roles stateIds badgeIds keyIds nextUuid) calls) := by
  apply runCalls_preserves fun _ _ => FamilyTree.effect
  constructor
  · intro k p hk
    cases hk
  · intro id m hm
    cases hm

/-- After any run of calls from empty tables the parents form a forest, without a cycle; and whatever
call comes next, a parent that it sets is a member of the same organisation. -/
theorem family_tree (env : Environment) (roles : List Role) (stateIds : List PyText)
    (badgeIds keyIds : List Uuid) (nextUuid : Uuid) (calls : List Call) (call : Call) :
    let db := runCalls env (emptyDatabase roles stateIds badgeIds keyIds nextUuid) calls
    (parents db).Forest ∧ (∀ id, ¬ Relation.TransGen (parents db).Child id id) ∧
    ∀ id m' p, (step env db call).members.get? id=some m' → m'.columns.parentId=some p →
      (∀ m, db.members.get? id=some m → m.columns.parentId ≠ some p) →
      ∃ parent, db.members.get? p=some parent ∧
        parent.columns.text .orgId=m'.columns.text .orgId := by
  intro db
  have h : FamilyTree db := familyTree_runCalls env roles stateIds badgeIds keyIds nextUuid calls
  refine ⟨h.forest,h.forest.acyclic,?_⟩
  intro id m' p hm' hp hnew
  exact (step_effect env db call).parent_set hm' hp hnew

end VbApi.Members
