import VbApi.Archive.EffectivePermissions
import VbApi.Archive.FileReading

/-! Every way to a file or a directory checks the same right: the pages, the listings, the search,
the links and the comments agree on what a member can open. -/
namespace VbApi.Archive
open VbApi.Foundations Parents

/-! ### What a member may read -/

/-- A trashed directory, or one below it. -/
def Trashed (s : ArchiveTables) (dirId : Uuid) : Prop :=
  ∃ a row, Relation.ReflTransGen (parents s.tree).Child dirId a ∧ s.dirs.get? a=some row ∧
    row.deletedAt ≠ none

def DirReadable (s : ArchiveTables) (user : Member) (dirId : Uuid) : Prop :=
  (∃ dir, s.dirs.get? dirId=some dir) ∧ ¬ Trashed s dirId ∧ EffectiveKey s dirId (insightKey user)

/-- A file of a directory that the user may read. -/
def FileReadable (s : ArchiveTables) (user : Member) (file : ArchiveFile) : Prop :=
  file.deletedAt=none ∧ ∃ dirId, file.archiveDirId=some dirId ∧ DirReadable s user dirId

/-- The recursive query finds the trash and what is below it. -/
theorem mem_trashedDirIds_iff (s : ArchiveTables) (dirId : Uuid) :
    dirId ∈ trashedDirIds s ↔ Trashed s dirId := by
  have hstep : (fun a b => b ∈ s.dirs.keysWhere fun _ d => d.archiveDirId=some a)=
      Function.swap (parents s.tree).Child := by
    ext a b
    change _ ↔ (parents s.tree).Child b a
    rw [Dict.mem_keysWhere,child_tree_iff]
    simp
  have hnext : ∀ a ∈ s.dirs.keys, ∀ b ∈ s.dirs.keysWhere fun _ d => d.archiveDirId=some a,
      b ∈ s.dirs.keys := by
    intro a _ b hb
    obtain ⟨row,hrow,-⟩ := (Dict.mem_keysWhere _ _ _).mp hb
    exact (Dict.mem_keys_iff _ _).mpr ⟨row,hrow⟩
  have hbase : (s.dirs.keysWhere fun _ d => d.deletedAt.isSome) ⊆ s.dirs.keys := by
    intro a ha
    obtain ⟨row,hrow,-⟩ := (Dict.mem_keysWhere _ _ _).mp ha
    exact (Dict.mem_keys_iff _ _).mpr ⟨row,hrow⟩
  rw [trashedDirIds,mem_recursiveUnion_iff hnext hbase (Dict.nodup_keysWhere _ _),hstep]
  simp only [Dict.mem_keysWhere,Relation.reflTransGen_swap,Option.isSome_iff_ne_none]
  constructor
  · rintro ⟨a,⟨row,hrow,hdeleted⟩,hchain⟩
    exact ⟨a,row,hchain,hrow,by simpa using hdeleted⟩
  · rintro ⟨a,row,hchain,hrow,hdeleted⟩
    exact ⟨a,⟨row,hrow,by simpa using hdeleted⟩,hchain⟩

/-- Below a directory that is not in the trash, only its own mark puts a directory there. -/
lemma trashed_child_iff {s : ArchiveTables} {dirId p : Uuid} {dir : ArchiveDirRow}
    (hdir : s.dirs.get? dirId=some dir) (hp : dir.archiveDirId=some p) (hclean : ¬ Trashed s p) :
    Trashed s dirId ↔ dir.deletedAt ≠ none := by
  constructor
  · rintro ⟨a,row,hchain,hrow,hdeleted⟩
    rcases Relation.ReflTransGen.cases_head hchain with rfl | ⟨q,hq,hqa⟩
    · rw [hdir,Option.some.injEq] at hrow
      subst hrow
      exact hdeleted
    · obtain ⟨dir',hdir',hq⟩ := child_tree_iff.mp hq
      rw [hdir,Option.some.injEq] at hdir'
      subst hdir'
      rw [hp,Option.some.injEq] at hq
      subst hq
      exact absurd ⟨a,row,hqa,hrow,hdeleted⟩ hclean
  · exact fun hdeleted => ⟨dirId,dir,.refl,hdir,hdeleted⟩

/-- A root directory is in the trash when it is marked. -/
lemma trashed_root_iff {s : ArchiveTables} {dirId : Uuid} {dir : ArchiveDirRow}
    (hdir : s.dirs.get? dirId=some dir) (hroot : dir.archiveDirId=none) :
    Trashed s dirId ↔ dir.deletedAt ≠ none := by
  constructor
  · rintro ⟨a,row,hchain,hrow,hdeleted⟩
    rcases Relation.ReflTransGen.cases_head hchain with rfl | ⟨q,hq,-⟩
    · rw [hdir,Option.some.injEq] at hrow
      subst hrow
      exact hdeleted
    · obtain ⟨dir',hdir',hq⟩ := child_tree_iff.mp hq
      rw [hdir,Option.some.injEq] at hdir'
      subst hdir'
      rw [hroot] at hq
      contradiction
  · exact fun hdeleted => ⟨dirId,dir,.refl,hdir,hdeleted⟩

/-! ### What the calls of a member do -/

/-- The page of the directory opens. -/
def OpensDir (fuel : ℕ) (s : ArchiveTables) (user : Member) (dirId : Uuid) : Prop :=
  ∃ detail, Succeeds (getDirDetail fuel s user dirId) detail

/-- The page of the file opens. -/
def OpensFile (fuel : ℕ) (s : ArchiveTables) (user : Member) (fileId : Uuid) : Prop :=
  ∃ detail, Succeeds (getFileDetail fuel s user fileId) detail

section Member
variable {s : ArchiveTables} {fuel : ℕ} {user : Member} {dirId : Uuid} {dir : ArchiveDirRow}
  (henough : EnoughFuel s fuel) (hmember : isArchiveAdmin user.toUser=false)
include henough hmember

lemma requireInsightOrAdmin_iff (hdir : s.dirs.get? dirId=some dir) {u : PUnit} :
    Succeeds (requireInsightOrAdmin fuel s user dir.toArchiveDir) u ↔
      EffectiveKey s dirId (insightKey user) := by
  obtain ⟨insight,hinsight,hiff⟩ := canInsight_spec henough user hdir
  rw [requireInsightOrAdmin,hmember,← hiff]
  simp only [Bool.false_eq_true,if_false,succeeds_bind,succeeds_lift,hinsight,Option.some.injEq,
    exists_eq_left']
  cases insight <;> simp

theorem opensDir_iff (dirId : Uuid) : OpensDir fuel s user dirId ↔ DirReadable s user dirId := by
  unfold OpensDir DirReadable getDirDetail
  cases hdir : s.dirs.get? dirId with
  | none => simp
  | some dir =>
    dsimp only
    rw [hmember]
    by_cases htrashed : Trashed s dirId
    · rw [if_pos ⟨by simp,(mem_trashedDirIds_iff s dirId).mpr htrashed⟩]
      simp [htrashed]
    · rw [if_neg (by simp [mem_trashedDirIds_iff,htrashed])]
      obtain ⟨content,hcontent⟩ := buildDirDetailContent_answers henough user hdir
        (isArchiveAdmin user.toUser)
      obtain ⟨inherited,hinherited,-⟩ := (henough dirId dir hdir).inherited
      obtain ⟨path,hpath⟩ := (henough dirId dir hdir).path
      simp only [dirDetail,succeeds_bind,succeeds_lift,succeeds_pure,hcontent,hinherited,hpath,
        requireInsightOrAdmin_iff henough hmember hdir,Option.some.injEq]
      constructor
      · rintro ⟨_,_,hkey,-⟩
        exact ⟨⟨dir,rfl⟩,htrashed,hkey⟩
      · rintro ⟨-,-,hkey⟩
        exact ⟨_,⟨⟩,hkey,content,rfl,inherited,rfl,path,rfl,rfl⟩

/-- The rule that every read of a single file shares. -/
theorem requireReadableFile_iff (file : ArchiveFile) (allowUnfiledUploader : Bool) {u : PUnit} :
    Succeeds (requireReadableFile fuel s user file allowUnfiledUploader) u ↔
      FileReadable s user file ∨ (allowUnfiledUploader=true ∧ file.deletedAt=none ∧
        file.archiveDirId=none ∧ file.storeItem.createdBy=some user.id) := by
  unfold requireReadableFile FileReadable
  rw [hmember]
  by_cases hdeleted : file.deletedAt ≠ none
  · simp [hdeleted]
  · rw [not_not] at hdeleted
    cases hp : file.archiveDirId with
    | none =>
      by_cases hown : allowUnfiledUploader=true ∧ file.storeItem.createdBy=some user.id
      · simp [hdeleted,hown]
      · simp only [hdeleted,hown]
        simpa using hown
    | some p =>
      cases hget : s.dirs.get? p with
      | none => simp [hdeleted,hget,DirReadable]
      | some dir =>
        by_cases htrashed : Trashed s p
        · simp [hdeleted,hget,DirReadable,mem_trashedDirIds_iff,htrashed]
        · simp [hdeleted,hget,DirReadable,mem_trashedDirIds_iff,htrashed,
            requireInsightOrAdmin_iff henough hmember hget]

omit hmember in
lemma filePath_answers (file : ArchiveFile) : ∃ path, filePath fuel s file=some path := by
  unfold filePath
  split
  · exact ⟨[],rfl⟩
  · rename_i dirId dir hparent
    obtain ⟨p,-,hp⟩ := Option.bind_eq_some_iff.mp hparent
    obtain ⟨row,hrow,heq⟩ := Option.map_eq_some_iff.mp hp
    cases heq
    exact (henough _ _ hrow).path

theorem opensFile_iff (fileId : Uuid) :
    OpensFile fuel s user fileId ↔ ∃ file, s.files.get? fileId=some file ∧ FileReadable s user file := by
  unfold OpensFile getFileDetail
  cases hfile : s.files.get? fileId with
  | none => simp
  | some file =>
    obtain ⟨path,hpath⟩ := filePath_answers henough file
    simp only [succeeds_bind,succeeds_lift,succeeds_pure,hpath,Option.some.injEq,exists_eq_left',
      requireReadableFile_iff henough hmember]
    constructor
    · rintro ⟨_,_,hreadable | ⟨hallow,-⟩,-⟩
      · exact hreadable
      · contradiction
    · exact fun hreadable => ⟨_,⟨⟩,Or.inl hreadable,rfl⟩

end Member

/-! ### What a listing shows -/

def Buckets.all {α : Type} (b : Buckets α) : List α := b.insight ++ (b.admin ++ b.trashed)

def DirContent.ListsDir (content : DirContent) (dirId : Uuid) : Prop :=
  ∃ d ∈ content.subdirs.all, d.id=dirId

def DirContent.ListsFile (content : DirContent) (fileId : Uuid) : Prop :=
  ∃ f ∈ content.files.all, f.id=fileId

section Listings
variable {s : ArchiveTables} {fuel : ℕ} {user : Member}

lemma mem_all_insight {α : Type} (b : Buckets α) (x y : α) :
    y ∈ ({ b with insight := b.insight ++ [x] } : Buckets α).all ↔ y ∈ b.all ∨ y=x := by
  simp only [Buckets.all,List.mem_append,List.mem_singleton]
  tauto

/-- A member who is no admin is shown the directories that are not deleted and that it has an
insight into. -/
lemma mem_classifyDirs (henough : EnoughFuel s fuel) {parentId : Option Uuid}
    {bucket : Buckets DirShort} (h : classifyDirs fuel s user false parentId=some bucket)
    (short : DirShort) :
    short ∈ bucket.all ↔ ∃ d ∈ childDirs s parentId, d.2.deletedAt=none ∧
      EffectiveKey s d.1 (insightKey user) ∧ short=dirShort d.1 d.2 := by
  have hstep : ∀ b d b', d ∈ childDirs s parentId → classifyDir fuel s user false b d=some b' →
      (short ∈ b'.all ↔ short ∈ b.all ∨ (d.2.deletedAt=none ∧ EffectiveKey s d.1 (insightKey user) ∧
        short=dirShort d.1 d.2)) := by
    intro b d b' hd hb'
    obtain ⟨insight,hinsight,hiff⟩ := canInsight_spec henough user
      ((mem_childDirs s parentId d).mp hd).1
    rw [← hiff]
    by_cases hdeleted : d.2.deletedAt ≠ none
    · rw [classifyDir,if_pos hdeleted] at hb'
      cases hb'
      simp [hdeleted]
    · rw [classifyDir,if_neg hdeleted,hinsight] at hb'
      rw [not_not] at hdeleted
      cases insight with
      | true =>
        cases hb'
        rw [mem_all_insight]
        simp [hdeleted]
      | false =>
        cases hb'
        simp
  have hfold : ∀ ds : List (Uuid × ArchiveDirRow), (∀ d ∈ ds, d ∈ childDirs s parentId) → ∀ b b',
      ds.foldlM (classifyDir fuel s user false) b=some b' →
      (short ∈ b'.all ↔ short ∈ b.all ∨ ∃ d ∈ ds, d.2.deletedAt=none ∧
        EffectiveKey s d.1 (insightKey user) ∧ short=dirShort d.1 d.2) := by
    intro ds
    induction ds with
    | nil =>
      intro _ b b' hb'
      cases hb'
      simp
    | cons d ds ih =>
      intro hds b b' hb'
      rw [List.foldlM_cons,Option.bind_eq_bind,Option.bind_eq_some_iff] at hb'
      obtain ⟨next,hnext,hlast⟩ := hb'
      rw [ih (fun x hx => hds x (List.mem_cons_of_mem _ hx)) next b' hlast,
        hstep b d next (hds d List.mem_cons_self) hnext,List.exists_mem_cons_iff,or_assoc]
  rw [hfold _ (fun _ hd => hd) _ _ h]
  simp [Buckets.all,Buckets.empty]

/-- A member who is no admin is shown the files that are not deleted, with insight into their
directory. -/
lemma mem_classifyFiles (hasInsight : Bool) (fs : List (Uuid × ArchiveFile)) (b : Buckets FileShort)
    (short : FileShort) :
    short ∈ (fs.foldl (classifyFile false hasInsight) b).all ↔ short ∈ b.all ∨
      ∃ f ∈ fs, f.2.deletedAt=none ∧ hasInsight=true ∧ short=fileShort f.1 f.2 := by
  induction fs generalizing b with
  | nil => simp
  | cons f fs ih =>
    have hstep : short ∈ (classifyFile false hasInsight b f).all ↔ short ∈ b.all ∨
        (f.2.deletedAt=none ∧ hasInsight=true ∧ short=fileShort f.1 f.2) := by
      by_cases hdeleted : f.2.deletedAt ≠ none
      · simp [classifyFile,hdeleted]
      · rw [classifyFile,if_neg hdeleted]
        rw [not_not] at hdeleted
        cases hasInsight with
        | true =>
          rw [if_pos rfl,mem_all_insight]
          simp [hdeleted]
        | false => simp
    rw [List.foldl_cons,ih,hstep,List.exists_mem_cons_iff,or_assoc]

lemma listsDir_iff (henough : EnoughFuel s fuel) {parentId : Option Uuid}
    {content : DirContent} (h : classifyDirs fuel s user false parentId=some content.subdirs)
    (dirId : Uuid) : content.ListsDir dirId ↔ ∃ dir, s.dirs.get? dirId=some dir ∧
      dir.archiveDirId=parentId ∧ dir.deletedAt=none ∧ EffectiveKey s dirId (insightKey user) := by
  unfold DirContent.ListsDir
  simp only [mem_classifyDirs henough h,mem_childDirs]
  constructor
  · rintro ⟨_,⟨⟨k,dir⟩,⟨hdir,hp⟩,hdeleted,hkey,rfl⟩,rfl⟩
    exact ⟨dir,hdir,hp,hdeleted,hkey⟩
  · rintro ⟨dir,hdir,hp,hdeleted,hkey⟩
    exact ⟨_,⟨(dirId,dir),⟨hdir,hp⟩,hdeleted,hkey,rfl⟩,rfl⟩

lemma mem_filesIn (s : ArchiveTables) (dirId : Option Uuid) (f : Uuid × ArchiveFile) :
    f ∈ filesIn s dirId ↔ s.files.get? f.1=some f.2 ∧ f.2.archiveDirId=dirId := by
  rw [filesIn,List.mem_filter,decide_eq_true_eq,Dict.get?_eq_some_iff]

lemma listsFile_iff {dirId : Option Uuid} {content : DirContent} {hasInsight : Bool}
    (h : content.files=(filesIn s dirId).foldl (classifyFile false hasInsight) .empty)
    (fileId : Uuid) : content.ListsFile fileId ↔ ∃ file, s.files.get? fileId=some file ∧
      file.archiveDirId=dirId ∧ file.deletedAt=none ∧ hasInsight=true := by
  unfold DirContent.ListsFile
  simp only [h,mem_classifyFiles,mem_filesIn]
  constructor
  · rintro ⟨_,hnone | ⟨⟨k,file⟩,⟨hfile,hp⟩,hdeleted,hinsight,rfl⟩,rfl⟩
    · simp [Buckets.all,Buckets.empty] at hnone
    · exact ⟨file,hfile,hp,hdeleted,hinsight⟩
  · rintro ⟨file,hfile,hp,hdeleted,hinsight⟩
    exact ⟨_,Or.inr ⟨(fileId,file),⟨hfile,hp⟩,hdeleted,hinsight,rfl⟩,rfl⟩

/-- What stands on the page of a directory. -/
lemma getDirDetail_content (hmember : isArchiveAdmin user.toUser=false) {dirId : Uuid}
    {detail : DirDetail} (h : Succeeds (getDirDetail fuel s user dirId) detail) :
    ∃ dir hasInsight, s.dirs.get? dirId=some dir ∧
      canInsight fuel s user dir.toArchiveDir=some hasInsight ∧
      classifyDirs fuel s user false (some dirId)=some detail.content.subdirs ∧
      detail.content.files=
        (filesIn s (some dirId)).foldl (classifyFile false hasInsight) .empty := by
  unfold getDirDetail at h
  split at h
  · simp at h
  · rename_i dir hdir
    split_ifs at h
    · simp at h
    · simp only [dirDetail,succeeds_bind,succeeds_lift,succeeds_pure] at h
      obtain ⟨_,-,content,hcontent,_,-,_,-,rfl⟩ := h
      rw [buildDirDetailContent,hmember] at hcontent
      simp only [Option.bind_eq_bind,Option.bind_eq_some_iff,Option.pure_def,
        Option.some.injEq] at hcontent
      obtain ⟨subdirs,hsubdirs,hasInsight,hinsight,rfl⟩ := hcontent
      exact ⟨dir,hasInsight,hdir,hinsight,hsubdirs,rfl⟩

end Listings
/-! ### What the search shows -/

section Search
variable {s : ArchiveTables} {fuel : ℕ} {user : Member}

lemma mem_searchRows {ν : Type} {rows : Dict Uuid ν} {deletedAt : ν → Option Timestamp}
    {rank : Uuid → Option ℚ} {hit : (Uuid × ν) × ℚ} (h : hit ∈ searchRows rows deletedAt rank) :
    rows.get? hit.1.1=some hit.1.2 ∧ deletedAt hit.1.2=none := by
  have hsorted := List.mem_of_mem_take h
  rw [mem_sortBy,List.mem_filterMap] at hsorted
  obtain ⟨row,hrow,hmatch⟩ := hsorted
  obtain ⟨r,-,rfl⟩ := Option.map_eq_some_iff.mp hmatch
  rw [List.mem_filter] at hrow
  exact ⟨(Dict.get?_eq_some_iff _ _ _).mpr hrow.1,by simpa using hrow.2⟩

lemma mem_collectHits {α β : Type} {collect : α → Option (Option β)} {hits : List α} {out : List β}
    (h : collectHits collect hits=some out) {b : β} (hb : b ∈ out) :
    ∃ hit ∈ hits, collect hit=some (some b) := by
  induction hits generalizing out with
  | nil =>
    cases h
    contradiction
  | cons hit hits ih =>
    simp only [collectHits,Option.bind_eq_bind,Option.bind_eq_some_iff,Option.pure_def,
      Option.some.injEq] at h
    obtain ⟨collected,hcollected,rest,hrest,rfl⟩ := h
    rcases List.mem_append.mp hb with hb | hb
    · rw [Option.mem_toList] at hb
      exact ⟨hit,List.mem_cons_self,by rw [hcollected,hb]⟩
    · obtain ⟨x,hx,hxb⟩ := ih hrest hb
      exact ⟨x,List.mem_cons_of_mem _ hx,hxb⟩

lemma collectHits_answers {α β : Type} {collect : α → Option (Option β)} {hits : List α}
    (h : ∀ hit ∈ hits, ∃ r, collect hit=some r) : ∃ out, collectHits collect hits=some out := by
  induction hits with
  | nil => exact ⟨[],rfl⟩
  | cons hit hits ih =>
    obtain ⟨r,hr⟩ := h hit List.mem_cons_self
    obtain ⟨out,hout⟩ := ih fun x hx => h x (List.mem_cons_of_mem _ hx)
    exact ⟨r.toList ++ out,by rw [collectHits,hr,hout]; rfl⟩

lemma hiddenDir_spec (henough : EnoughFuel s fuel) (user : Member) {dirId : Uuid} {dir : ArchiveDirRow}
    (hdir : s.dirs.get? dirId=some dir) :
    ∃ hidden, hiddenDir fuel s user false (trashedDirIds s) dirId dir=some hidden ∧
      (hidden=false ↔ DirReadable s user dirId) := by
  obtain ⟨insight,hinsight,hiff⟩ := canInsight_spec henough user hdir
  unfold hiddenDir DirReadable
  by_cases htrashed : dirId ∈ trashedDirIds s
  · rw [← mem_trashedDirIds_iff,← hiff]
    exact ⟨true,by simp [htrashed],by simp [htrashed]⟩
  · rw [← mem_trashedDirIds_iff,← hiff]
    refine ⟨!insight,by simp [htrashed,hinsight],?_⟩
    simp [htrashed,hdir]

/-- The hit is a directory, or a file, that the user may read. -/
def HitReadable (s : ArchiveTables) (user : Member) : SearchHit → Prop
  | .dir dirId _ _ _ => DirReadable s user dirId
  | .file fileId _ _ _ _ _ => ∃ file, s.files.get? fileId=some file ∧ FileReadable s user file

lemma collectDirHit_spec (henough : EnoughFuel s fuel) (user : Member) {hit : (Uuid × ArchiveDirRow) × ℚ}
    (hrow : s.dirs.get? hit.1.1=some hit.1.2) :
    ∃ r, collectDirHit fuel s user false (trashedDirIds s) hit=some r ∧
      ∀ e ∈ r, HitReadable s user e.2 := by
  obtain ⟨hidden,hhidden,hiff⟩ := hiddenDir_spec henough user hrow
  obtain ⟨path,hpath⟩ := (henough _ _ hrow).path
  simp only [collectDirHit,hhidden,dirPathString,hpath]
  cases hidden with
  | true => exact ⟨none,rfl,fun e he => by contradiction⟩
  | false =>
    refine ⟨_,rfl,?_⟩
    intro e he
    cases he
    exact hiff.mp rfl

lemma collectFileHit_spec (henough : EnoughFuel s fuel) (user : Member) {hit : (Uuid × ArchiveFile) × ℚ}
    (hrow : s.files.get? hit.1.1=some hit.1.2) (hdeleted : hit.1.2.deletedAt=none) :
    ∃ r, collectFileHit fuel s user false (trashedDirIds s) hit=some r ∧
      ∀ e ∈ r, HitReadable s user e.2 := by
  unfold collectFileHit
  dsimp only
  split
  · exact ⟨none,rfl,fun e he => by contradiction⟩
  · rename_i parentId parent hparent
    obtain ⟨p,hp,hget⟩ := Option.bind_eq_some_iff.mp hparent
    obtain ⟨row,hdir,heq⟩ := Option.map_eq_some_iff.mp hget
    cases heq
    obtain ⟨hidden,hhidden,hiff⟩ := hiddenDir_spec henough user hdir
    obtain ⟨path,hpath⟩ := (henough _ _ hdir).path
    simp only [hhidden,dirPathString,hpath]
    cases hidden with
    | true => exact ⟨none,rfl,fun e he => by contradiction⟩
    | false =>
      refine ⟨_,rfl,?_⟩
      intro e he
      cases he
      exact ⟨_,hrow,hdeleted,_,hp,hiff.mp rfl⟩

/-- A stage of the search answers with what the user may read. -/
lemma collectStage_spec (henough : EnoughFuel s fuel) {dirs : List ((Uuid × ArchiveDirRow) × ℚ)}
    {files : List ((Uuid × ArchiveFile) × ℚ)}
    (hdirs : ∀ hit ∈ dirs, s.dirs.get? hit.1.1=some hit.1.2)
    (hfiles : ∀ hit ∈ files, s.files.get? hit.1.1=some hit.1.2 ∧ hit.1.2.deletedAt=none) :
    ∃ out, collectStage fuel s user false (trashedDirIds s) dirs files=some out ∧
      ∀ e ∈ out, HitReadable s user e.2 := by
  have hdir := fun hit hmem => collectDirHit_spec henough user (hdirs hit hmem)
  have hfile := fun hit hmem =>
    collectFileHit_spec henough user (hfiles hit hmem).1 (hfiles hit hmem).2
  obtain ⟨dirHits,hdirHits⟩ := collectHits_answers fun hit hmem =>
    (hdir hit hmem).imp fun r hr => hr.1
  obtain ⟨fileHits,hfileHits⟩ := collectHits_answers fun hit hmem =>
    (hfile hit hmem).imp fun r hr => hr.1
  refine ⟨dirHits ++ fileHits,by rw [collectStage,hdirHits,hfileHits]; rfl,?_⟩
  intro e he
  rcases List.mem_append.mp he with he | he
  · obtain ⟨hit,hmem,hcollect⟩ := mem_collectHits hdirHits he
    obtain ⟨r,hr,hreadable⟩ := hdir hit hmem
    rw [hr,Option.some.injEq] at hcollect
    exact hreadable e hcollect
  · obtain ⟨hit,hmem,hcollect⟩ := mem_collectHits hfileHits he
    obtain ⟨r,hr,hreadable⟩ := hfile hit hmem
    rw [hr,Option.some.injEq] at hcollect
    exact hreadable e hcollect

lemma searchArchive_spec (henough : EnoughFuel s fuel)
    (hmember : isArchiveAdmin user.toUser=false) (index : SearchIndex) (query : PyText) :
    ∃ hits, searchArchive fuel s index user query=some hits ∧ ∀ hit ∈ hits, HitReadable s user hit := by
  have hstage : ∀ dirRank fileRank : Uuid → Option ℚ,
      ∃ out, collectStage fuel s user false (trashedDirIds s)
        (searchRows s.dirs (·.deletedAt) dirRank) (searchRows s.files (·.deletedAt) fileRank)=
          some out ∧ ∀ e ∈ out, HitReadable s user e.2 := by
    intro dirRank fileRank
    exact collectStage_spec henough (fun hit hmem => (mem_searchRows hmem).1)
      fun hit hmem => mem_searchRows hmem
  obtain ⟨found,hfound,hreadable⟩ : ∃ found,
      exactStage fuel s index user false (trashedDirIds s) query=some found ∧
        ∀ e ∈ found, HitReadable s user e.2 := by
    unfold exactStage
    dsimp only
    split_ifs
    · exact ⟨[],rfl,fun e he => by contradiction⟩
    · exact hstage _ _
  obtain ⟨ranked,hranked,hreadable'⟩ : ∃ ranked,
      rankedHits fuel s index user false (trashedDirIds s) query found=some ranked ∧
        ∀ e ∈ ranked, HitReadable s user e.2 := by
    unfold rankedHits
    split_ifs
    · exact hstage _ _
    · exact ⟨found,rfl,hreadable⟩
  refine ⟨((sortBy (fun e => OrderDual.toDual e.1) ranked).take searchLimit).map (·.2),?_,?_⟩
  · simp only [searchArchive,hmember,Bool.false_eq_true,if_false,hfound,Option.bind_eq_bind,
      Option.bind_some,hranked]
    rfl
  · intro hit hhit
    obtain ⟨e,he,rfl⟩ := List.mem_map.mp hhit
    exact hreadable' e ((mem_sortBy _ _ _).mp (List.mem_of_mem_take he))

end Search
/-! ### The read paths agree -/

/-- What a hit names opens. -/
def OpensHit (fuel : ℕ) (s : ArchiveTables) (user : Member) : SearchHit → Prop
  | .dir dirId _ _ _ => OpensDir fuel s user dirId
  | .file fileId _ _ _ _ _ => OpensFile fuel s user fileId

/-- No call runs out of fuel. -/
structure CallsAnswer (fuel : ℕ) (s : ArchiveTables) (user : Member) : Prop where
  dir : ∀ dirId, Answered (getDirDetail fuel s user dirId)
  file : ∀ fileId, Answered (getFileDetail fuel s user fileId)
  root : ∃ content, rootContent fuel s user=some content
  search : ∀ index query, ∃ hits, searchArchive fuel s index user query=some hits
  url : ∀ fileId size, Answered (getPresignedUrl fuel s user fileId size)
  comment : ∀ now fileId data, Answered (createComment fuel s user now fileId data)

/-- A listing shows what opens; the search, a link or a comment gives nothing else, apart from the
link to the user's own upload that is not filed yet. -/
structure ReadsAgree (fuel : ℕ) (s : ArchiveTables) (user : Member) : Prop where
  calls : CallsAnswer fuel s user
  files : ∀ dirId fileId, (∃ detail, Succeeds (getDirDetail fuel s user dirId) detail ∧
      detail.content.ListsFile fileId) ↔
    (∃ file, s.files.get? fileId=some file ∧ file.archiveDirId=some dirId) ∧
      OpensFile fuel s user fileId
  unfiled : ∀ fileId file, s.files.get? fileId=some file → file.archiveDirId=none →
    ¬ OpensFile fuel s user fileId
  subdirs : ∀ parentId detail, Succeeds (getDirDetail fuel s user parentId) detail → ∀ dirId,
    detail.content.ListsDir dirId ↔
      (∃ dir, s.dirs.get? dirId=some dir ∧ dir.archiveDirId=some parentId) ∧
        OpensDir fuel s user dirId
  root : ∀ content, rootContent fuel s user=some content →
    (∀ dirId, content.ListsDir dirId ↔
      (∃ dir, s.dirs.get? dirId=some dir ∧ dir.archiveDirId=none) ∧ OpensDir fuel s user dirId) ∧
    ∀ fileId, ¬ content.ListsFile fileId
  search : ∀ index query hits, searchArchive fuel s index user query=some hits →
    ∀ hit ∈ hits, OpensHit fuel s user hit
  url : ∀ fileId size url, Succeeds (getPresignedUrl fuel s user fileId size) url →
    OpensFile fuel s user fileId ∨ ∃ file, s.files.get? fileId=some file ∧ file.deletedAt=none ∧
      file.archiveDirId=none ∧ file.storeItem.createdBy=some user.id
  createComment : ∀ now fileId data r, Succeeds (createComment fuel s user now fileId data) r →
    OpensFile fuel s user fileId ∧ r.1.dirs=s.dirs ∧ r.1.files=s.files
  -- its response is empty
  deleteComment : ∀ now fileId commentId s', Succeeds (deleteComment s user now fileId commentId) s' →
    s'.dirs=s.dirs ∧ s'.files=s.files ∧ ∃ comment, s.comments.get? commentId=some comment ∧
      comment.archiveFileId=fileId ∧ comment.createdBy=some user.id

section Agreement
variable {s : ArchiveTables} {fuel : ℕ} {user : Member}
  (henough : EnoughFuel s fuel) (hmember : isArchiveAdmin user.toUser=false)
include henough hmember

lemma requireReadableFile_answered (file : ArchiveFile) (allowUnfiledUploader : Bool) :
    Answered (requireReadableFile fuel s user file allowUnfiledUploader) := by
  rw [requireReadableFile,hmember,if_neg (by decide)]
  by_cases hdeleted : file.deletedAt ≠ none
  · rw [if_pos hdeleted]
    exact answered_throw _
  · rw [if_neg hdeleted]
    split
    · split_ifs <;> simp
    · split
      · exact answered_throw _
      · rename_i hget
        split_ifs
        · exact answered_throw _
        · exact requireInsightOrAdmin_answered henough user hget

lemma callsAnswer : CallsAnswer fuel s user where
  dir := getDirDetail_answered henough user
  file fileId := by
    unfold getFileDetail
    split
    · exact answered_throw _
    · rename_i file _
      obtain ⟨path,hpath⟩ := filePath_answers henough file
      apply (requireReadableFile_answered henough hmember file false).bind
      intro _ _
      apply (answered_lift hpath).bind
      intro _ _
      exact answered_pure _
  root := by
    obtain ⟨subdirs,hsubdirs⟩ := classifyDirs_answers henough user (isArchiveAdmin user.toUser) none
    exact ⟨_,by rw [rootContent,hsubdirs]; rfl⟩
  search index query := (searchArchive_spec henough hmember index query).imp fun _ h => h.1
  url fileId size := by
    unfold getPresignedUrl
    split
    · exact answered_throw _
    · rename_i file _
      apply (requireReadableFile_answered henough hmember file true).bind
      intro _ _
      split
      · dsimp only
        split_ifs <;> exact answered_pure _
      · exact answered_pure _
  comment now fileId data := by
    unfold createComment
    split
    · exact answered_throw _
    · rename_i file _
      apply (requireReadableFile_answered henough hmember file false).bind
      intro _ _
      exact answered_pure _

lemma files_agree (dirId fileId : Uuid) :
    (∃ detail, Succeeds (getDirDetail fuel s user dirId) detail ∧
      detail.content.ListsFile fileId) ↔
    (∃ file, s.files.get? fileId=some file ∧ file.archiveDirId=some dirId) ∧
      OpensFile fuel s user fileId := by
  rw [opensFile_iff henough hmember]
  constructor
  · rintro ⟨detail,hdetail,hlists⟩
    obtain ⟨dir,hasInsight,hdir,hinsight,-,hfiles⟩ := getDirDetail_content hmember hdetail
    obtain ⟨file,hfile,hp,hdeleted,-⟩ := (listsFile_iff hfiles fileId).mp hlists
    have hreadable := (opensDir_iff henough hmember dirId).mp ⟨detail,hdetail⟩
    exact ⟨⟨file,hfile,hp⟩,file,hfile,hdeleted,dirId,hp,hreadable⟩
  · rintro ⟨⟨file,hfile,hp⟩,file',hfile',hdeleted,dirId',hp',hreadable⟩
    cases hfile.symm.trans hfile'
    cases hp.symm.trans hp'
    obtain ⟨detail,hdetail⟩ := (opensDir_iff henough hmember dirId).mpr hreadable
    obtain ⟨dir,hasInsight,hdir,hinsight,-,hfiles⟩ := getDirDetail_content hmember hdetail
    obtain ⟨insight,hcan,hiff⟩ := canInsight_spec henough user hdir
    rw [hinsight,Option.some.injEq] at hcan
    subst hcan
    exact ⟨detail,hdetail,(listsFile_iff hfiles fileId).mpr
      ⟨file,hfile,hp,hdeleted,hiff.mpr hreadable.2.2⟩⟩

/-- Below a page that opens, and at the root, the listed directories are those that open. -/
lemma dirs_agree {parentId : Option Uuid} {content : DirContent}
    (hclean : ∀ p ∈ parentId, ¬ Trashed s p)
    (h : classifyDirs fuel s user false parentId=some content.subdirs) (dirId : Uuid) :
    content.ListsDir dirId ↔ (∃ dir, s.dirs.get? dirId=some dir ∧ dir.archiveDirId=parentId) ∧
      OpensDir fuel s user dirId := by
  have htrashed : ∀ dir, s.dirs.get? dirId=some dir → dir.archiveDirId=parentId →
      (Trashed s dirId ↔ dir.deletedAt ≠ none) := by
    intro dir hdir hp
    cases parentId with
    | none => exact trashed_root_iff hdir hp
    | some p => exact trashed_child_iff hdir hp (hclean p rfl)
  rw [listsDir_iff henough h,opensDir_iff henough hmember,DirReadable]
  constructor
  · rintro ⟨dir,hdir,hp,hdeleted,hkey⟩
    refine ⟨⟨dir,hdir,hp⟩,⟨dir,hdir⟩,?_,hkey⟩
    rw [htrashed dir hdir hp]
    simpa using hdeleted
  · rintro ⟨⟨dir,hdir,hp⟩,-,hnot,hkey⟩
    rw [htrashed dir hdir hp,not_not] at hnot
    exact ⟨dir,hdir,hp,hnot,hkey⟩

lemma readsAgree_of_enoughFuel : ReadsAgree fuel s user where
  calls := callsAnswer henough hmember
  files := files_agree henough hmember
  unfiled fileId file hfile hp hopens := by
    obtain ⟨file',hfile',-,dirId,hp',-⟩ := (opensFile_iff henough hmember fileId).mp hopens
    cases hfile.symm.trans hfile'
    rw [hp] at hp'
    contradiction
  subdirs parentId detail hdetail dirId := by
    obtain ⟨-,-,-,-,hsubdirs,-⟩ := getDirDetail_content hmember hdetail
    have hreadable := (opensDir_iff henough hmember parentId).mp ⟨detail,hdetail⟩
    refine dirs_agree henough hmember ?_ hsubdirs dirId
    rintro p ⟨⟩
    exact hreadable.2.1
  root content hcontent := by
    rw [rootContent,hmember] at hcontent
    simp only [Option.bind_eq_bind,Option.bind_eq_some_iff,Option.pure_def,
      Option.some.injEq] at hcontent
    obtain ⟨subdirs,hsubdirs,rfl⟩ := hcontent
    constructor
    · intro dirId
      exact dirs_agree henough hmember (fun p hp => by contradiction) hsubdirs dirId
    · intro fileId hlists
      have hfiles : DirContent.files ⟨subdirs,(filesIn s none).foldl (classifyFile false false) .empty⟩=
          (filesIn s none).foldl (classifyFile false false) .empty := rfl
      obtain ⟨-,-,-,-,hinsight⟩ := (listsFile_iff hfiles fileId).mp hlists
      contradiction
  search index query hits hsearch hit hhit := by
    obtain ⟨hits',hsearch',hreadable⟩ := searchArchive_spec henough hmember index query
    cases hsearch.symm.trans hsearch'
    have h := hreadable hit hhit
    cases hit with
    | dir dirId => exact (opensDir_iff henough hmember dirId).mpr h
    | file fileId => exact (opensFile_iff henough hmember fileId).mpr h
  url fileId size url h := by
    unfold getPresignedUrl at h
    split at h
    · simp at h
    · rename_i file hfile
      obtain ⟨_,hcheck,-⟩ := succeeds_bind.mp h
      rcases (requireReadableFile_iff henough hmember file true).mp hcheck with
        hreadable | ⟨-,hupload⟩
      · exact Or.inl ((opensFile_iff henough hmember fileId).mpr ⟨file,hfile,hreadable⟩)
      · exact Or.inr ⟨file,hfile,hupload⟩
  createComment now fileId data r h := by
    unfold createComment at h
    split at h
    · simp at h
    · rename_i file hfile
      obtain ⟨_,hcheck,hrest⟩ := succeeds_bind.mp h
      cases succeeds_pure.mp hrest
      rcases (requireReadableFile_iff henough hmember file false).mp hcheck with
        hreadable | ⟨hallow,-⟩
      · exact ⟨(opensFile_iff henough hmember fileId).mpr ⟨file,hfile,hreadable⟩,rfl,rfl⟩
      · contradiction
  deleteComment now fileId commentId s' h := by
    unfold deleteComment at h
    split at h
    · rename_i comment hfile hcomment
      split_ifs at h with hother hforeign
      · simp at h
      · simp at h
      · cases succeeds_pure.mp h
        rw [not_not] at hother
        simp only [hmember,Bool.false_eq_true,not_false_eq_true,and_true,ne_eq,not_not] at hforeign
        exact ⟨rfl,rfl,comment,hcomment,hother,hforeign⟩
    · simp at h

end Agreement

/-- In an archive whose directories form a tree, every way to a file or a directory leads a member
without admin rights to the same ones. -/
theorem readsAgree {s : ArchiveTables} (h : Acyclic s) {user : Member}
    (hmember : ¬ isArchiveAdmin user.toUser=true) :
    ∃ n, ∀ fuel, n ≤ fuel → ReadsAgree fuel s user := by
  obtain ⟨n,hn⟩ := exists_enoughFuel h
  exact ⟨n,fun fuel hfuel => readsAgree_of_enoughFuel (hn fuel hfuel) (by simpa using hmember)⟩

/-- A member of an organisation and a state, without further rights. -/
def plainMember (memberId : Uuid) : Member where
  permissions := []
  id := memberId
  orgId := some (text "vbw")
  stateId := some (text "up")

theorem readsAgree_nested : ∃ n, ∀ fuel, n ≤ fuel →
    ReadsAgree fuel (nestedArchive (some 5)) (plainMember 7) :=
  readsAgree (nestedArchive_acyclic (some 5)) (by decide)

end VbApi.Archive
