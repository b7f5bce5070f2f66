import VbApi.Members.ChangeLog
import VbApi.P4x.CategoryReaders

/-! The paged listings of an account's transactions. Every page is a query of its own, and all of them
order by the booking day alone. -/
namespace VbApi.P4x.Listings
open VbApi.Foundations

inductive PartnerType
  | member
  | contact
  | account
  | special
  deriving DecidableEq, Repr

def partnerColumn (p : P4xPartner) : PartnerType → Option Uuid
  | .member => p.memberId
  | .contact => p.contactId
  | .account => p.p4xAccountId
  | .special => p.p4xSpecialContactId

def delegatingColumn (t : P4xTransaction) : PartnerType → Option Uuid
  | .member => t.delegatingMemberId
  | .contact => t.delegatingContactId
  | .account => t.delegatingP4xAccountId
  | .special => t.delegatingP4xSpecialContactId

/-- `ORDER BY booking DESC`. -/
def bookingDesc (t : P4xTransaction) : Dateᵒᵈ := OrderDual.toDual t.booking

section Queries
variable (orderBy : OrderBy bookingDesc) (size : ℕ) (s : Store) (accountId : Uuid)

def activeOf (s : Store) (accountId : Uuid) (p : P4xTransaction → Bool) : List P4xTransaction :=
  s.transactions.filter fun t => t.p4xAccountId=accountId && t.active && p t

def monthRows (year month : ℕ) : List P4xTransaction :=
  activeOf s accountId fun t => t.booking.year=year && t.booking.month=month

def getTransactionsByMonth (year month page : ℕ) : List P4xTransaction × ℕ :=
  orderBy.page size page (monthRows s accountId year month)

def partnerIbans (s : Store) (type : PartnerType) (partnerId : Uuid) : List (Option PyText) :=
  (s.partners.filter fun p => partnerColumn p type=some partnerId && p.active).map (·.iban)

/-- The partner matches and nobody is delegating, or the delegating partner matches. -/
def partnerRows (type : PartnerType) (partnerId : Uuid) : List P4xTransaction :=
  activeOf s accountId fun t =>
    (some t.iban ∈ partnerIbans s type partnerId && noDelegationFilter t) ||
      delegatingColumn t type=some partnerId

def getTransactionsByPartner (type : PartnerType) (partnerId : Uuid) (page : ℕ) :
    List P4xTransaction × ℕ :=
  orderBy.page size page (partnerRows s accountId type partnerId)

def categoryRows (categoryId : Uuid) : List P4xTransaction :=
  activeOf s accountId fun t => t.id ∈ categoryTxIds s (some categoryId)

def getTransactionsByCategory (categoryId : Uuid) (page : ℕ) : List P4xTransaction × ℕ :=
  if categoryTxIds s (some categoryId)=∅ then ([],0)
  else orderBy.page size page (categoryRows s accountId categoryId)

def filterHitTxIds (s : Store) (filterId : Uuid) : Finset Uuid :=
  ((s.filterHits.filter fun h => h.p4xCategoryFilterId=filterId).map
    (·.p4xTransactionId)).toFinset \ txWithDirects s

def filterRows (filterId : Uuid) : List P4xTransaction :=
  activeOf s accountId fun t => t.id ∈ filterHitTxIds s filterId

def getTransactionsByFilter (filterId : Uuid) (page : ℕ) : List P4xTransaction × ℕ :=
  if filterHitTxIds s filterId=∅ then ([],0)
  else orderBy.page size page (filterRows s accountId filterId)

end Queries

section Lemmas
variable (orderBy : OrderBy bookingDesc) (size page : ℕ) (s : Store) (accountId : Uuid)

lemma activeOf_empty {s : Store} {accountId : Uuid} {ids : Finset Uuid} (h : ids=∅) :
    activeOf s accountId (fun t => t.id ∈ ids)=[] := by
  simp [activeOf,h]

/-- Without any transaction ids the page is empty, as it would be without the early return. -/
lemma getTransactionsByCategory_eq (categoryId : Uuid) :
    getTransactionsByCategory orderBy size s accountId categoryId page=
      orderBy.page size page (categoryRows s accountId categoryId) := by
  unfold getTransactionsByCategory
  split_ifs with hempty
  · rw [categoryRows,activeOf_empty hempty,orderBy.page_nil]
  · rfl

lemma getTransactionsByFilter_eq (filterId : Uuid) :
    getTransactionsByFilter orderBy size s accountId filterId page=
      orderBy.page size page (filterRows s accountId filterId) := by
  unfold getTransactionsByFilter
  split_ifs with hempty
  · rw [filterRows,activeOf_empty hempty,orderBy.page_nil]
  · rfl

/-- The listing in the order of the store, with the page size of the source. -/
lemma getTransactionsByCategory_stable (categoryId : Uuid) :
    getTransactionsByCategory (.stable bookingDesc) paginationSize s accountId categoryId page=
      P4x.getTransactionsByCategory s accountId categoryId page := by
  unfold getTransactionsByCategory P4x.getTransactionsByCategory
  split_ifs
  · rfl
  · have hlength : (byBookingDesc (transactionsOfCategory s accountId categoryId)).length=
        (transactionsOfCategory s accountId categoryId).length :=
      (sortBy_perm (fun t : P4xTransaction => OrderDual.toDual t.booking) _).length_eq
    simp only [hlength]
    rfl

end Lemmas

/-- A listing that asks for some active rows of an account by booking day. -/
lemma covers_activeOf {s : Store} {accountId : Uuid} {size : ℕ} (hsize : 0 < size)
    (hids : (s.transactions.map (·.id)).Nodup) (p : P4xTransaction → Bool)
    {get : OrderBy bookingDesc → ℕ → List P4xTransaction × ℕ}
    (hget : ∀ orderBy page, get orderBy page=orderBy.page size page (activeOf s accountId p)) :
    Covers bookingDesc get size (activeOf s accountId p) ↔
      ∀ n k, ¬ SplitsAt bookingDesc (activeOf s accountId p) (n*size) k := by
  have hnodup : (activeOf s accountId p).Nodup := hids.of_map.filter _
  have hpages : ∀ orderBy page, get orderBy page=
      ((pageOf size page (orderBy.pick (activeOf s accountId p))).map id,
        (activeOf s accountId p).length) := by
    intro orderBy page
    rw [hget,List.map_id]
    rfl
  have hiff := covers_iff (f := id) hsize hnodup (fun _ _ _ _ heq => heq) hpages
  rwa [List.map_id] at hiff

/-- Each listing shows every matching row once, for all answers of the database, exactly when no page
boundary falls between two of its rows of one booking day (two log entries of one moment). -/
theorem listings_cover_iff (s : Store) (db : Members.Database) (logs : List Members.LogRow)
    {size : ℕ} (hsize : 0 < size) (hids : (s.transactions.map (·.id)).Nodup)
    (hlogs : (logs.map (·.id)).Nodup) :
    (∀ accountId year month,
      Covers bookingDesc
        (fun orderBy => getTransactionsByMonth orderBy size s accountId year month) size
        (monthRows s accountId year month) ↔
      ∀ n k, ¬ SplitsAt bookingDesc (monthRows s accountId year month) (n*size) k) ∧
    (∀ accountId type partnerId,
      Covers bookingDesc
        (fun orderBy => getTransactionsByPartner orderBy size s accountId type partnerId) size
        (partnerRows s accountId type partnerId) ↔
      ∀ n k, ¬ SplitsAt bookingDesc (partnerRows s accountId type partnerId) (n*size) k) ∧
    (∀ accountId categoryId,
      Covers bookingDesc
        (fun orderBy => getTransactionsByCategory orderBy size s accountId categoryId) size
        (categoryRows s accountId categoryId) ↔
      ∀ n k, ¬ SplitsAt bookingDesc (categoryRows s accountId categoryId) (n*size) k) ∧
    (∀ accountId filterId,
      Covers bookingDesc
        (fun orderBy => getTransactionsByFilter orderBy size s accountId filterId) size
        (filterRows s accountId filterId) ↔
      ∀ n k, ¬ SplitsAt bookingDesc (filterRows s accountId filterId) (n*size) k) ∧
    ∀ memberId,
      Covers Members.modifiedDesc
        (fun orderBy page => Members.getMemberChangelog orderBy db logs memberId page size) size
        (Members.changelogEntries db logs memberId) ↔
      ∀ n k, ¬ SplitsAt Members.modifiedDesc (Members.changelogRows logs memberId) (n*size) k := by
  refine ⟨?_,?_,?_,?_,?_⟩
  · intro accountId year month
    exact covers_activeOf hsize hids _ fun _ _ => rfl
  · intro accountId type partnerId
    exact covers_activeOf hsize hids _ fun _ _ => rfl
  · intro accountId categoryId
    exact covers_activeOf hsize hids _ fun orderBy page =>
      getTransactionsByCategory_eq orderBy size page s accountId categoryId
  · intro accountId filterId
    exact covers_activeOf hsize hids _ fun orderBy page =>
      getTransactionsByFilter_eq orderBy size page s accountId filterId
  · intro memberId
    exact Members.changelog_covers_iff db memberId hsize hlogs

section Samples

/-- A booking of account 1. -/
def sampleBooking (id : Uuid) (booking : Date) : P4xTransaction where
  id := id
  sha256Hash := ""
  booking := booking
  valuation := booking
  iban := text "AT611904300234573201"
  amount := 100
  subject := []
  p4xAccountId := 1
  delegatingMemberId := none
  delegatingContactId := none
  delegatingP4xAccountId := none
  delegatingP4xSpecialContactId := none
  raw := ""
  deletedAt := none

def storeWith (transactions : List P4xTransaction) : Store where
  members := []
  accounts := [⟨1,none,0,none⟩]
  categories := []
  filters := []
  filterHits := []
  directs := []
  fees := []
  partners := []
  transactions := transactions
  nextUuid := 1000

def twoDays : Store :=
  storeWith [sampleBooking 1 (.of 2026 1 12),sampleBooking 2 (.of 2026 1 13)]

/-- More bookings of one day than a page holds. -/
def busyDay : Store :=
  storeWith ((List.range 101).map fun id => sampleBooking id (.of 2026 1 12))

/-- Two fields that one save has logged. -/
def oneSave : List Members.LogRow :=
  [⟨1,some 5,some 7,some 3,.update,text "vorname",none,some (text "Max")⟩,
    ⟨2,some 5,some 7,some 3,.update,text "nachname",none,some (text "Muster")⟩]

def noMembers : Members.Database := ⟨.empty,.empty,[],[],[],[],[],[],0⟩

end Samples

theorem listings_cover_twoDays :
    Covers bookingDesc (fun orderBy => getTransactionsByMonth orderBy 1 twoDays 1 2026 1) 1
      (monthRows twoDays 1 2026 1) := by
  refine ((listings_cover_iff twoDays noMembers [] one_pos (by decide) (by decide)).1
    1 2026 1).mpr ?_
  intro n k
  apply not_splitsAt_of_nodup
  decide

/-- A full page of one day before a further booking of this day, and one save over two pages. -/
theorem listings_miss_rows :
    ¬ Covers bookingDesc
      (fun orderBy => getTransactionsByMonth orderBy paginationSize busyDay 1 2026 1)
      paginationSize (monthRows busyDay 1 2026 1) ∧
    ¬ Covers Members.modifiedDesc
      (fun orderBy page => Members.getMemberChangelog orderBy noMembers oneSave 3 page 1) 1
      (Members.changelogEntries noMembers oneSave 3) := by
  constructor
  · have hids : busyDay.transactions.map (·.id)=List.range 101 := by
      simp [busyDay,storeWith,sampleBooking,Function.comp_def]
    have hrows : monthRows busyDay 1 2026 1=busyDay.transactions := by
      simp [monthRows,activeOf,busyDay,storeWith,sampleBooking,P4xTransaction.active,Date.of,
        Date.ofValid]
    intro h
    refine (covers_activeOf (by decide) (hids ▸ List.nodup_range) _ fun _ _ => rfl).mp h 1
      (OrderDual.toDual (.of 2026 1 12)) ?_
    change SplitsAt bookingDesc (monthRows busyDay 1 2026 1) _ _
    rw [hrows]
    apply splitsAt_of_forall_eq
    · simp [busyDay,storeWith,sampleBooking,bookingDesc]
    · decide
    · simp [busyDay,storeWith,paginationSize]
  · intro h
    refine (Members.changelog_covers_iff noMembers 3 one_pos (by decide)).mp h 1
      (OrderDual.toDual ((5 : ℕ) : WithTop ℕ)) ?_
    decide

end VbApi.P4x.Listings
