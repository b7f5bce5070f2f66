import VbApi.Foundations.PyText
import VbApi.Foundations.QuotedLists
import VbApi.Foundations.Results

/-! The exported mailing list: one quoted name with an address for each recipient, and a reader that
gets the recipients back. -/
namespace VbApi.Standesdb
open VbApi.Foundations

/-- What the mailing list reads of a member. -/
structure ExportMember where
  vorname : Option PyText
  nachname : Option PyText
  couleurname : Option PyText
  verstorben : Bool
  entlassen : Bool
  email : Option PyText

/-- What the mailing list reads of a contact. -/
structure ExportContact where
  name : Option PyText
  couleurname : Option PyText
  email : Option PyText

def ExportMember.cn (m : ExportMember) : PyText :=
  let name := strip (m.vorname.getD [] ++ text " " ++ m.nachname.getD [])
  let couleurname := m.couleurname.getD []
  let honorific := if m.verstorben || m.entlassen then text "wl." else text "v/o"
  let full := if name ≠ [] ∧ couleurname ≠ [] then
      name ++ text " " ++ honorific ++ text " " ++ couleurname
    else if couleurname ≠ [] then couleurname else name
  join (text " ") (splitWords full)

def ExportContact.cn (c : ExportContact) : PyText :=
  let name := c.name.getD []
  let couleurname := c.couleurname.getD []
  let full := if name ≠ [] ∧ couleurname ≠ [] then name ++ text " v/o " ++ couleurname
    else if couleurname ≠ [] then couleurname else name
  join (text " ") (splitWords full)

def doubleQuote : CodePoint := codePoint '"'
def backslash : CodePoint := codePoint '\\'

/-- `s.replace(c, by)` for a single character. -/
def replaceChar (c : CodePoint) (replacement s : PyText) : PyText :=
  s.flatMap fun d => if d=c then replacement else [d]

/-- One entry of the mailing list. -/
def formatRecipient (name email : PyText) : PyText :=
  let escaped := replaceChar doubleQuote [backslash,doubleQuote]
    (replaceChar backslash [backslash,backslash] name)
  doubleQuote::(escaped ++ doubleQuote::(text " <" ++ email ++ text ">"))

/-- The name and the address of a recipient who has an address. -/
def recipient (cn : PyText) (email : Option PyText) : Option (PyText × PyText) :=
  let email := strip (email.getD [])
  if email ≠ [] then some (cn,email) else none

inductive ExportError
  | unicodeEncodeError
  deriving DecidableEq

/-- `encode("utf-8")`, with the bytes known by the text that they stand for. -/
def encodeUtf8 (s : PyText) : Except ExportError PyText :=
  if s.any fun c => isHighSurrogate c || isLowSurrogate c then .error .unicodeEncodeError else .ok s

section Export
variable (members : List ExportMember) (contacts : List ExportContact)

/-- Those with an address, members first. -/
def recipients : List (PyText × PyText) :=
  members.filterMap (fun m => recipient m.cn m.email) ++
    contacts.filterMap fun c => recipient c.cn c.email

def generateMailingList : Except ExportError PyText :=
  encodeUtf8 (join (text ", \n") ((recipients members contacts).map fun r => formatRecipient r.1 r.2))

/-! ### The reader -/

/-- An address in angle brackets with nothing after it. -/
def readAddress : PyText → Option PyText
  | c::s =>
    let address := s.takeWhile (· ≠ codePoint '>')
    let rest := s.dropWhile (· ≠ codePoint '>')
    if c=codePoint '<' ∧ rest ≠ [] ∧ rest.tail.all isSpace then some address else none
  | [] => none

/-- A quoted name and an address; blanks may stand around both. -/
def readRecipient (entry : PyText) : Option (PyText × PyText) :=
  match entry.dropWhile isSpace with
  | c::s =>
    if c=doubleQuote then
      (readQuoted doubleQuote backslash false s).bind fun r =>
        (readAddress (r.2.dropWhile isSpace)).map fun address => (r.1,address)
    else none
  | [] => none

/-- The recipients of a list with commas between them; a comma in a quoted name is none. -/
def readRecipients (s : PyText) : Option (List (PyText × PyText)) :=
  if s.all isSpace then some []
  else (splitOutside doubleQuote backslash (codePoint ',') .plain s).mapM readRecipient

/-- An address as it is stored: no blanks, commas, quotes or angle brackets. -/
def PlainAddress (email : PyText) : Prop :=
  ∀ c ∈ email, isSpace c=false ∧ c ≠ codePoint ',' ∧ c ≠ doubleQuote ∧ c ≠ codePoint '<' ∧
    c ≠ codePoint '>'

/-- The texts of a member as a database can store them. -/
def ExportMember.Stored (m : ExportMember) : Prop :=
  ∀ s, s ∈ m.vorname ∨ s ∈ m.nachname ∨ s ∈ m.couleurname ∨ s ∈ m.email → Storable s

def ExportContact.Stored (c : ExportContact) : Prop :=
  ∀ s, s ∈ c.name ∨ s ∈ c.couleurname ∨ s ∈ c.email → Storable s

/-- The exported text is read as the names and addresses of the members and then of the contacts, in
their order and without those who have no address; and it is there for all texts that a database can
store. -/
structure MailingListLaw : Prop where
  round_trip : ∀ out, generateMailingList members contacts=.ok out →
    readRecipients out=some ((members.map (fun m => (m.cn,strip (m.email.getD []))) ++
      contacts.map fun c => (c.cn,strip (c.email.getD []))).filter fun r => r.2 ≠ [])
  answers : (∀ m ∈ members, m.Stored) → (∀ c ∈ contacts, c.Stored) →
    ∃ out, generateMailingList members contacts=.ok out

end Export

/-! ### One entry -/

section Entry
variable {name email : PyText}

/-- The two replacements are the escaping of quoted texts. -/
lemma replace_eq_escapeQuoted (name : PyText) :
    replaceChar doubleQuote [backslash,doubleQuote] (replaceChar backslash [backslash,backslash] name)=
      escapeQuoted doubleQuote backslash name := by
  have hne : backslash ≠ doubleQuote := by decide
  rw [replaceChar,replaceChar,List.flatMap_assoc,escapeQuoted]
  congr 1
  funext c
  by_cases hback : c=backslash
  · subst hback
    simp [hne]
  · by_cases hquote : c=doubleQuote
    · subst hquote
      simp [hback]
    · simp [hback,hquote]

lemma formatRecipient_eq (name email : PyText) : formatRecipient name email=
    (doubleQuote::(escapeQuoted doubleQuote backslash name ++ [doubleQuote])) ++
      (text " <" ++ email ++ text ">") := by
  rw [formatRecipient,replace_eq_escapeQuoted]
  simp

lemma plain_address {c : CodePoint} (h : PlainAddress email) (hc : c ∈ text " <" ++ email ++ text ">") :
    c ≠ doubleQuote ∧ c ≠ codePoint ',' := by
  rcases List.mem_append.mp hc with hc | hc
  · rcases List.mem_append.mp hc with hc | hc
    · have hall : (text " <").all (fun c => c ≠ doubleQuote ∧ c ≠ codePoint ',')=true := by decide
      exact of_decide_eq_true (List.all_eq_true.mp hall c hc)
    · exact ⟨(h c hc).2.2.1,(h c hc).2.1⟩
  · have hall : (text ">").all (fun c => c ≠ doubleQuote ∧ c ≠ codePoint ',')=true := by decide
    exact of_decide_eq_true (List.all_eq_true.mp hall c hc)

/-- An entry has no comma outside of its quotes. -/
lemma seals_formatRecipient (h : PlainAddress email) :
    Seals doubleQuote backslash (codePoint ',') .plain (formatRecipient name email) .plain := by
  have hname : Seals doubleQuote backslash (codePoint ',') .plain
      (doubleQuote::(escapeQuoted doubleQuote backslash name ++ [doubleQuote])) .plain :=
    seals_quoted (by decide) (by decide) name
  rw [formatRecipient_eq]
  exact hname.append (seals_plain fun c hc => plain_address h hc)

lemma readAddress_format (h : PlainAddress email) :
    readAddress (codePoint '<'::(email ++ text ">"))=some email := by
  have hall : ∀ c ∈ email, decide (c ≠ codePoint '>')=true :=
    fun c hc => decide_eq_true (h c hc).2.2.2.2
  have hend : decide (codePoint '>' ≠ codePoint '>')=false := by simp
  have htake : (email ++ text ">").takeWhile (· ≠ codePoint '>')=email := by
    change (email ++ [codePoint '>']).takeWhile _=_
    rw [List.takeWhile_append_of_pos hall,List.takeWhile_cons_of_neg (by rw [hend]; simp),
      List.append_nil]
  have hdrop : (email ++ text ">").dropWhile (· ≠ codePoint '>')=[codePoint '>'] := by
    change (email ++ [codePoint '>']).dropWhile _=_
    rw [List.dropWhile_append_of_pos hall,List.dropWhile_cons_of_neg (by rw [hend]; simp)]
  rw [readAddress,htake,hdrop]
  exact if_pos ⟨rfl,List.cons_ne_nil _ _,rfl⟩

/-- An entry is read as its name and its address, whatever the name is. -/
theorem readRecipient_format (h : PlainAddress email) {blanks : PyText}
    (hblank : ∀ c ∈ blanks, isSpace c=true) :
    readRecipient (blanks ++ formatRecipient name email)=some (name,email) := by
  have hquote : isSpace doubleQuote=false := by decide
  have hopen : isSpace (codePoint '<')=false := by decide
  have hstart : (blanks ++ formatRecipient name email).dropWhile isSpace=
      doubleQuote::(escapeQuoted doubleQuote backslash name ++
        doubleQuote::(text " <" ++ email ++ text ">")) := by
    rw [List.dropWhile_append_of_pos hblank,formatRecipient_eq,List.cons_append,
      List.dropWhile_cons_of_neg (by rw [hquote]; simp),List.append_assoc,List.singleton_append]
  have haddress : (text " <" ++ email ++ text ">").dropWhile isSpace=
      codePoint '<'::(email ++ text ">") := by
    change (codePoint ' '::codePoint '<'::(email ++ text ">")).dropWhile isSpace=_
    rw [List.dropWhile_cons_of_pos (by decide),List.dropWhile_cons_of_neg (by rw [hopen]; simp)]
  rw [readRecipient,hstart]
  dsimp only
  rw [if_pos rfl,readQuoted_escapeQuoted (by decide),Option.bind_some]
  dsimp only
  rw [haddress,readAddress_format h]
  rfl

end Entry

/-! ### The whole list -/

section List
variable {members : List ExportMember} {contacts : List ExportContact}

lemma join_cons (sep word : PyText) (words : List PyText) :
    join sep (word::words)=word ++ words.flatMap (sep ++ ·) := by
  induction words generalizing word with
  | nil => simp [join]
  | cons next words ih =>
    have hnext := ih next
    rw [join] at hnext ⊢
    rw [List.intercalate_cons_cons,hnext,List.flatMap_cons]
    simp

lemma mapM_readRecipient {rs : List (PyText × PyText)} (h : ∀ r ∈ rs, PlainAddress r.2)
    {blanks : PyText} (hblank : ∀ c ∈ blanks, isSpace c=true) :
    (rs.map fun r => blanks ++ formatRecipient r.1 r.2).mapM readRecipient=some rs := by
  induction rs with
  | nil => rfl
  | cons r rs ih =>
    rw [List.map_cons,List.mapM_cons,readRecipient_format (h r List.mem_cons_self) hblank,
      ih fun r' hr' => h r' (List.mem_cons_of_mem r hr')]
    rfl

/-- The exported list is read as the list that it was made from. -/
theorem readRecipients_join {rs : List (PyText × PyText)} (h : ∀ r ∈ rs, PlainAddress r.2) :
    readRecipients (join (text ", \n") (rs.map fun r => formatRecipient r.1 r.2))=some rs := by
  cases rs with
  | nil => rfl
  | cons first rs =>
    have hshape : join (text ", \n") ((first::rs).map fun r => formatRecipient r.1 r.2)=
        formatRecipient first.1 first.2 ++
          (rs.map fun r => text " \n" ++ formatRecipient r.1 r.2).flatMap (codePoint ','::·) := by
      rw [List.map_cons,join_cons,List.flatMap_map,List.flatMap_map]
      rfl
    have hquote : isSpace doubleQuote=false := by decide
    have hsome : (formatRecipient first.1 first.2 ++ (rs.map fun r =>
        text " \n" ++ formatRecipient r.1 r.2).flatMap (codePoint ','::·)).all isSpace=false := by
      rw [formatRecipient,List.cons_append,List.all_cons,hquote,Bool.false_and]
    have hblank : ∀ c ∈ text " \n", isSpace c=true := List.all_eq_true.mp (by decide)
    have hsealed : ∀ p ∈ formatRecipient first.1 first.2::rs.map fun r =>
        text " \n" ++ formatRecipient r.1 r.2,
        Seals doubleQuote backslash (codePoint ',') .plain p .plain := by
      intro p hp
      rcases List.mem_cons.mp hp with rfl | hp
      · exact seals_formatRecipient (h first List.mem_cons_self)
      · obtain ⟨r,hr,rfl⟩ := List.mem_map.mp hp
        have hglue : Seals doubleQuote backslash (codePoint ',') .plain (text " \n") .plain := by
          apply seals_plain
          intro c hc
          have hall : (text " \n").all (fun c => c ≠ doubleQuote ∧ c ≠ codePoint ',')=true := by decide
          exact of_decide_eq_true (List.all_eq_true.mp hall c hc)
        exact hglue.append (seals_formatRecipient (h r (List.mem_cons_of_mem first hr)))
    rw [readRecipients,hshape,hsome,if_neg Bool.false_ne_true,splitOutside_separated hsealed,List.mapM_cons]
    have hfirst : readRecipient (formatRecipient first.1 first.2)=some first :=
      readRecipient_format (h first List.mem_cons_self) (List.forall_mem_nil _)
    rw [hfirst,mapM_readRecipient (fun r hr => h r (List.mem_cons_of_mem first hr)) hblank]
    rfl

end List

/-! ### Texts of a database -/

section Stored
variable {s t : PyText}

lemma storable_append (hs : Storable s) (ht : Storable t) : Storable (s ++ t) := by
  intro c hc
  rcases List.mem_append.mp hc with hc | hc
  · exact hs c hc
  · exact ht c hc

lemma storable_strip (h : Storable s) : Storable (strip s) := by
  obtain ⟨a,b,hs⟩ := strip_infix s
  intro c hc
  apply h
  rw [hs]
  exact List.mem_append_left b (List.mem_append_right a hc)

lemma storable_text {literal : String} (h : decide (Storable (text literal))=true) :
    Storable (text literal) := of_decide_eq_true h

lemma mem_of_mem_splitOnP {p : CodePoint → Bool} {w : PyText} (hw : w ∈ s.splitOnP p) {c : CodePoint}
    (hc : c ∈ w) : c ∈ s := by
  induction s generalizing w with
  | nil =>
    rw [List.splitOnP_nil,List.mem_singleton] at hw
    rw [hw] at hc
    cases hc
  | cons x s ih =>
    rw [List.splitOnP_cons_eq_if_modifyHead] at hw
    split_ifs at hw
    · rcases List.mem_cons.mp hw with rfl | hw
      · cases hc
      · exact List.mem_cons_of_mem x (ih hw hc)
    · obtain ⟨part,parts,hparts⟩ := List.exists_cons_of_ne_nil (List.splitOnP_ne_nil p s)
      rw [hparts] at hw ih
      rcases List.mem_cons.mp hw with rfl | hw
      · rcases List.mem_cons.mp hc with rfl | hc
        · exact List.mem_cons_self
        · exact List.mem_cons_of_mem x (ih List.mem_cons_self hc)
      · exact List.mem_cons_of_mem x (ih (List.mem_cons_of_mem part hw) hc)

lemma storable_join {sep : PyText} (hsep : Storable sep) {words : List PyText}
    (h : ∀ w ∈ words, Storable w) : Storable (join sep words) := by
  cases words with
  | nil =>
    intro c hc
    cases hc
  | cons word words =>
    rw [join_cons]
    refine storable_append (h word List.mem_cons_self) ?_
    intro c hc
    obtain ⟨w,hw,hc⟩ := List.mem_flatMap.mp hc
    exact storable_append hsep (h w (List.mem_cons_of_mem word hw)) c hc

lemma storable_words (h : Storable s) : Storable (join (text " ") (splitWords s)) := by
  refine storable_join (storable_text (by decide)) ?_
  intro w hw c hc
  exact h c (mem_of_mem_splitOnP (List.mem_filter.mp hw).1 hc)

lemma storable_getD {o : Option PyText} (h : ∀ s ∈ o, Storable s) : Storable (o.getD []) := by
  cases o with
  | none =>
    intro c hc
    cases hc
  | some s => exact h s rfl

lemma ExportMember.Stored.cn {m : ExportMember} (h : m.Stored) : Storable m.cn := by
  have hblank : Storable (text " ") := storable_text (by decide)
  have hvorname := storable_getD fun s hs => h s (.inl hs)
  have hnachname := storable_getD fun s hs => h s (.inr (.inl hs))
  have hcouleurname := storable_getD fun s hs => h s (.inr (.inr (.inl hs)))
  have hname := storable_strip (storable_append (storable_append hvorname hblank) hnachname)
  have hfull : ∀ honorific, Storable honorific → Storable (strip (m.vorname.getD [] ++ text " " ++
      m.nachname.getD []) ++ text " " ++ honorific ++ text " " ++ m.couleurname.getD []) := by
    intro honorific hhonorific
    exact storable_append (storable_append (storable_append (storable_append hname hblank) hhonorific)
      hblank) hcouleurname
  apply storable_words
  split_ifs
  · exact hfull _ (storable_text (by decide))
  · exact hfull _ (storable_text (by decide))
  · exact hcouleurname
  · exact hname

lemma ExportContact.Stored.cn {c : ExportContact} (h : c.Stored) : Storable c.cn := by
  have hname := storable_getD fun s hs => h s (.inl hs)
  have hcouleurname := storable_getD fun s hs => h s (.inr (.inl hs))
  apply storable_words
  split_ifs
  · exact storable_append (storable_append hname (storable_text (by decide))) hcouleurname
  · exact hcouleurname
  · exact hname

lemma storable_formatRecipient (hs : Storable s) (ht : Storable t) : Storable (formatRecipient s t) := by
  have hquote : Storable [doubleQuote] := of_decide_eq_true rfl
  have hescaped : Storable (escapeQuoted doubleQuote backslash s) := by
    intro c hc
    obtain ⟨d,hd,hc⟩ := List.mem_flatMap.mp hc
    split_ifs at hc
    · rcases List.mem_cons.mp hc with rfl | hc
      · decide
      · rw [List.mem_singleton.mp hc]
        exact hs d hd
    · rw [List.mem_singleton.mp hc]
      exact hs d hd
  rw [formatRecipient_eq]
  refine storable_append (storable_append hquote (storable_append hescaped hquote)) ?_
  exact storable_append (storable_append (storable_text (by decide)) ht) (storable_text (by decide))

lemma encodeUtf8_of_storable (h : Storable s) : encodeUtf8 s=.ok s := by
  rw [encodeUtf8,if_neg]
  rw [List.any_eq_true]
  intro hsurrogate
  obtain ⟨c,hc,hsurrogate⟩ := hsurrogate
  rw [(h c hc).2.1,(h c hc).2.2] at hsurrogate
  contradiction

end Stored

section Law
variable {members : List ExportMember} {contacts : List ExportContact}

lemma filterMap_recipient {α : Type*} (cn : α → PyText) (email : α → Option PyText) (xs : List α) :
    xs.filterMap (fun a => recipient (cn a) (email a))=
      (xs.map fun a => (cn a,strip ((email a).getD []))).filter fun r => r.2 ≠ [] := by
  rw [← List.filterMap_eq_filter,List.filterMap_map]
  congr 1
  funext a
  by_cases hempty : strip ((email a).getD [])=[]
  · simp [recipient,hempty,Option.guard]
  · simp [recipient,hempty,Option.guard]

/-- Nobody with an address is left out, and nobody else is put in. -/
lemma recipients_eq : recipients members contacts=
    (members.map (fun m => (m.cn,strip (m.email.getD []))) ++
      contacts.map fun c => (c.cn,strip (c.email.getD []))).filter fun r => r.2 ≠ [] := by
  rw [recipients,filterMap_recipient,filterMap_recipient,List.filter_append]

/-- A recipient is a member or a contact. -/
lemma mem_recipients {r : PyText × PyText} : r ∈ recipients members contacts →
    (∃ m ∈ members, r=(m.cn,strip (m.email.getD []))) ∨
      ∃ c ∈ contacts, r=(c.cn,strip (c.email.getD [])) := by
  intro hr
  rw [recipients_eq] at hr
  rcases List.mem_append.mp (List.mem_of_mem_filter hr) with hr | hr
  · obtain ⟨m,hm,rfl⟩ := List.mem_map.mp hr
    exact .inl ⟨m,hm,rfl⟩
  · obtain ⟨c,hc,rfl⟩ := List.mem_map.mp hr
    exact .inr ⟨c,hc,rfl⟩

theorem mailingList_law (hmembers : ∀ m ∈ members, PlainAddress (strip (m.email.getD [])))
    (hcontacts : ∀ c ∈ contacts, PlainAddress (strip (c.email.getD []))) :
    MailingListLaw members contacts := by
  refine ⟨?_,?_⟩
  · intro out hout
    have htext : out=join (text ", \n")
        ((recipients members contacts).map fun r => formatRecipient r.1 r.2) := by
      rw [generateMailingList,encodeUtf8] at hout
      split_ifs at hout
      cases hout
      rfl
    rw [htext,← recipients_eq]
    apply readRecipients_join
    intro r hr
    rcases mem_recipients hr with ⟨m,hm,rfl⟩ | ⟨c,hc,rfl⟩
    · exact hmembers m hm
    · exact hcontacts c hc
  · intro hm hc
    refine ⟨_,encodeUtf8_of_storable (storable_join (storable_text (by decide)) ?_)⟩
    intro w hw
    obtain ⟨r,hr,rfl⟩ := List.mem_map.mp hw
    rcases mem_recipients hr with ⟨m,hmem,rfl⟩ | ⟨c,hmem,rfl⟩
    · have hemail := storable_getD fun s hs => hm m hmem s (.inr (.inr (.inr hs)))
      exact storable_formatRecipient (hm m hmem).cn (storable_strip hemail)
    · have hemail := storable_getD fun s hs => hc c hmem s (.inr (.inr hs))
      exact storable_formatRecipient (hc c hmem).cn (storable_strip hemail)

end Law

/-- A member whose name looks like two recipients. -/
def hostileMember : ExportMember :=
  ⟨some (text "Max\", <x@y.at>, \"Tarn\\"),none,none,false,false,some (text "max@example.at")⟩

theorem mailingList_hostile : MailingListLaw [hostileMember] [] := by
  refine mailingList_law ?_ (List.forall_mem_nil _)
  intro m hm c hc
  rw [List.mem_singleton.mp hm] at hc
  have hall : (strip (hostileMember.email.getD [])).all (fun c => isSpace c=false ∧ c ≠ codePoint ',' ∧
      c ≠ doubleQuote ∧ c ≠ codePoint '<' ∧ c ≠ codePoint '>')=true := by decide +kernel
  exact of_decide_eq_true (List.all_eq_true.mp hall c hc)

end VbApi.Standesdb
