import VbApi.Foundations.Channels
import VbApi.Foundations.PyText

/-! The middleware that refuses a request whose body is larger than the limit of its content type,
before the application runs or while it reads. -/
namespace VbApi.Http
open VbApi.Foundations

def maxUploadBodyBytes : ℕ := 11*1024*1024
def maxJsonBodyBytes : ℕ := 1024*1024
def bodylessMethods : List String := ["GET","HEAD","OPTIONS","DELETE"]

/-- `{"detail":"Die Anfrage ist zu groß."}` in UTF-8. -/
def tooLargeBody : List UInt8 :=
  "\x7b\"detail\":\"Die Anfrage ist zu groß.\"\x7d".toUTF8.toList

structure Message where
  type : String
  body : Option (List UInt8)
  moreBody : Bool

inductive Sent
  | start (status : ℕ) (headers : List (PyText × PyText))
  | body (content : List UInt8) (moreBody : Bool)
  | other (type : String)

def Sent.isStart : Sent → Bool
  | .start _ _ => true
  | .body _ _ => false
  | .other _ => false

inductive HttpError
  | bodyTooLarge
  | valueError
  | other (name : String)
  deriving DecidableEq

abbrev App := ChannelProgram Message Sent HttpError
abbrev Client (σ : Type) := Channel σ Message Sent HttpError

structure Scope where
  type : String
  method : String
  /-- With names in lower case. -/
  headers : List (PyText × PyText)

def Scope.header (scope : Scope) (name : PyText) : PyText :=
  ((scope.headers.find? fun h => h.1=name).map (·.2)).getD []

/-- `str.isdigit`, for the characters that a header can have. -/
def isdigit (s : PyText) : Bool :=
  ¬ s.isEmpty && s.all fun c =>
    (asciiDigit? c).isSome || c.val=0xB2 || c.val=0xB3 || c.val=0xB9

/-- `int` of digits. The interpreter reads no more than 4300 of them, and no superscripts. -/
def int? (s : PyText) : Option ℕ :=
  if s.length > 4300 then none
  else (s.mapM asciiDigit?).map fun digits => digits.foldl (fun n d => n*10+d) 0

section Limit
variable {σ : Type}

/-- What the closures of the middleware keep beside the client. -/
structure Counting (σ : Type) where
  client : σ
  received : ℕ
  responseStarted : Bool

/-- `_counting_receive` and `tracking_send`. -/
def counting (client : Client σ) (limit : ℕ) :
    Channel (Counting σ) Message Sent HttpError where
  receive x := match client.receive x.client with
    | (.error e,s) => (.error e,{ x with client := s })
    | (.ok message,s) =>
      if message.type ≠ "http.request" then (.ok message,{ x with client := s })
      else
        let received := x.received+(message.body.getD []).length
        if received > limit then
          (.error .bodyTooLarge,{ x with client := s, received := received })
        else (.ok message,{ x with client := s, received := received })
  send message x :=
    ((client.send message x.client).1,{ x with
      client := (client.send message x.client).2
      responseStarted := x.responseStarted || message.isStart })

def sendAll : List Sent → App
  | [] => .done
  | message::messages => .send message fun
    | .error e => .raise e
    | .ok _ => sendAll messages

def reject : App := sendAll
  [.start 413 [(text "content-length",text (toString tooLargeBody.length)),
      (text "content-type",text "application/json")],
    .body tooLargeBody false]

variable (maxUploadBytes maxJsonBytes : ℕ)

def limitFor (scope : Scope) : ℕ :=
  if text "multipart/form-data" <+: scope.header (text "content-type") then maxUploadBytes
  else maxJsonBytes

/-- The application over the counting channel. -/
def stream (app : Scope → App) (client : Client σ) (scope : Scope) (s : σ) :
    Except HttpError Unit × Counting σ :=
  (counting client (limitFor maxUploadBytes maxJsonBytes scope)).run (app scope) ⟨s,0,false⟩

/-- `except BodyTooLargeError`. -/
def handle (client : Client σ) : Except HttpError Unit × Counting σ → Except HttpError Unit × σ
  | (.error .bodyTooLarge,x) =>
    if x.responseStarted then (.error .bodyTooLarge,x.client) else client.run reject x.client
  | (answer,x) => (answer,x.client)

def maxBodySize (app : Scope → App) (client : Client σ) (scope : Scope) (s : σ) :
    Except HttpError Unit × σ :=
  if scope.type ≠ "http" ∨ scope.method ∈ bodylessMethods then client.run (app scope) s
  else
    let declared := scope.header (text "content-length")
    let streamed := handle client (stream maxUploadBytes maxJsonBytes app client scope s)
    if isdigit declared then
      match int? declared with
      | none => (.error .valueError,s)
      | some length =>
        if length > limitFor maxUploadBytes maxJsonBytes scope then client.run reject s else streamed
    else streamed

end Limit

/-! ### What passes -/

abbrev Notes := List (Passed Message Sent)

def bodyBytes : Passed Message Sent → ℕ
  | .received message =>
    if message.type ≠ "http.request" then 0 else (message.body.getD []).length
  | .sent _ => 0

/-- The bytes of the body that are delivered. -/
def delivered (notes : Notes) : ℕ := (notes.map bodyBytes).sum

def isResponseStart : Passed Message Sent → Bool
  | .received _ => false
  | .sent message => message.isStart

def responseStarts (notes : Notes) : ℕ := notes.countP isResponseStart

@[simp] lemma delivered_append (a b : Notes) : delivered (a ++ b)=delivered a+delivered b := by
  simp [delivered]

@[simp] lemma delivered_received (message : Message) :
    delivered [.received message]=bodyBytes (.received message) := rfl

@[simp] lemma delivered_sent (message : Sent) : delivered [.sent message]=0 := rfl

@[simp] lemma responseStarts_append (a b : Notes) :
    responseStarts (a ++ b)=responseStarts a+responseStarts b := List.countP_append

@[simp] lemma responseStarts_received (message : Message) : responseStarts [.received message]=0 := rfl

@[simp] lemma responseStarts_sent (message : Sent) :
    responseStarts [.sent message]=if message.isStart then 1 else 0 := by
  cases h : message.isStart <;> simp [responseStarts,isResponseStart,h]

/-- A program that lets the error of the middleware through where it meets it. -/
def LetsThrough : App → Prop
  | .done => True
  | .raise _ => True
  | .receive next => next (.error .bodyTooLarge)=.raise .bodyTooLarge ∧
    ∀ answer, answer ≠ .error .bodyTooLarge → LetsThrough (next answer)
  | .send _ next => ∀ answer, answer ≠ .error .bodyTooLarge → LetsThrough (next answer)

section Law
variable {σ : Type} (client : Client σ) (limit : ℕ)

/-- A read fails as that of the client, or it is counted and passed on, or it is refused. -/
lemma counting_receive_cases (x : Counting σ) :
    (∃ e s, client.receive x.client=(.error e,s) ∧
      (counting client limit).receive x=(.error e,{ x with client := s })) ∨
    (∃ message s, client.receive x.client=(.ok message,s) ∧
      (bodyBytes (.received message)=0 ∨ x.received+bodyBytes (.received message) ≤ limit) ∧
      (counting client limit).receive x=
        (.ok message,{ x with client := s, received := x.received+bodyBytes (.received message) })) ∨
    ∃ message s, client.receive x.client=(.ok message,s) ∧
      limit < x.received+bodyBytes (.received message) ∧
      (counting client limit).receive x=
        (.error .bodyTooLarge,
          { x with client := s, received := x.received+bodyBytes (.received message) }) := by
  rcases hclient : client.receive x.client with ⟨e | message,s⟩
  · exact .inl ⟨e,s,rfl,by simp only [counting,hclient]⟩
  by_cases htype : message.type ≠ "http.request"
  · exact .inr (.inl ⟨message,s,rfl,.inl (by simp [bodyBytes,htype]),by
      simp [counting,hclient,bodyBytes,htype]⟩)
  by_cases hover : x.received+(message.body.getD []).length > limit
  · exact .inr (.inr ⟨message,s,rfl,by simpa [bodyBytes,htype] using hover,by
      simp [counting,hclient,bodyBytes,htype,hover]⟩)
  · exact .inr (.inl ⟨message,s,rfl,.inr (by simpa [bodyBytes,htype] using hover),by
      simp [counting,hclient,bodyBytes,htype,hover]⟩)

/-! #### No more than the limit is delivered -/

/-- What was let pass is within the limit, and counted until that is exceeded. -/
def Within (x : Counting σ × Notes) : Prop :=
  delivered x.2 ≤ limit ∧ (x.1.received ≤ limit → x.1.received=delivered x.2)

lemma counting_receive_within {x : Counting σ × Notes} (h : Within limit x) :
    Within limit ((counting client limit).noted.receive x).2 := by
  obtain ⟨hle,hcount⟩ := h
  rcases counting_receive_cases client limit x.1 with
    ⟨e,s,-,hx⟩ | ⟨message,s,-,hfits,hx⟩ | ⟨message,s,-,hover,hx⟩
  · rw [Channel.noted_receive_error _ hx]
    exact ⟨hle,hcount⟩
  · rw [Channel.noted_receive_ok _ hx]
    simp only [Within,delivered_append,delivered_received]
    by_cases hreceived : x.1.received ≤ limit
    · have := hcount hreceived
      omega
    · omega
  · rw [Channel.noted_receive_error _ hx]
    exact ⟨hle,fun hwithin => absurd hover (Nat.not_lt.mpr hwithin)⟩

lemma counting_run_within (p : App) (s : σ) :
    delivered ((counting client limit).noted.run p (⟨s,0,false⟩,[])).2.2 ≤ limit := by
  have hstart : Within limit (σ := σ) (⟨s,0,false⟩,[]) := ⟨Nat.zero_le _,fun _ => rfl⟩
  refine (Channel.run_invariant (I := Within limit) ?_ ?_ p hstart).1
  · exact fun x hx => counting_receive_within client limit hx
  · intro message x hx
    simpa only [Within,Channel.noted,counting,delivered_append,delivered_sent,Nat.add_zero] using hx

/-! #### Bodies within the limit -/

/-- The counting channel has passed on all that the client gave. -/
def Counted (x : σ × Notes) (y : Counting σ) : Prop :=
  y.client=x.1 ∧ y.received=delivered x.2

lemma delivered_before (x : σ × Notes) (h : delivered (client.noted.receive x).2.2 ≤ limit) :
    delivered x.2 ≤ limit := by
  obtain ⟨more,hmore⟩ := client.noted_receive_notes x
  rw [hmore,delivered_append] at h
  omega

lemma counted_receive {x : σ × Notes} {y : Counting σ} (h : Counted x y)
    (hle : delivered (client.noted.receive x).2.2 ≤ limit) :
    ((counting client limit).receive y).1=(client.noted.receive x).1 ∧
      Counted (client.noted.receive x).2 ((counting client limit).receive y).2 := by
  obtain ⟨hclient,hcount⟩ := h
  rcases counting_receive_cases client limit y with
    ⟨e,s,hs,hy⟩ | ⟨message,s,hs,-,hy⟩ | ⟨message,s,hs,hover,-⟩
  · rw [hclient] at hs
    rw [client.noted_receive_error hs,hy]
    exact ⟨rfl,rfl,hcount⟩
  · rw [hclient] at hs
    rw [client.noted_receive_ok hs,hy]
    refine ⟨rfl,rfl,?_⟩
    rw [delivered_append,delivered_received,hcount]
  · rw [hclient] at hs
    rw [client.noted_receive_ok hs,delivered_append,delivered_received] at hle
    omega

lemma counted_send (message : Sent) {x : σ × Notes} {y : Counting σ} (h : Counted x y) :
    ((counting client limit).send message y).1=(client.noted.send message x).1 ∧
      Counted (client.noted.send message x).2 ((counting client limit).send message y).2 := by
  obtain ⟨hclient,hcount⟩ := h
  simp [counting,Channel.noted,Counted,hclient,hcount]

/-- What stays within the limit is read as if there were none. -/
lemma counting_run_eq (p : App) (s : σ)
    (hle : delivered (client.noted.run p (s,[])).2.2 ≤ limit) :
    ((counting client limit).run p ⟨s,0,false⟩).1=(client.run p s).1 ∧
      ((counting client limit).run p ⟨s,0,false⟩).2.client=(client.run p s).2 := by
  have hstart : Counted (s,[]) ⟨s,0,false⟩ := ⟨rfl,rfl⟩
  obtain ⟨hanswer,hcounted⟩ := Channel.run_simulates_while (c := client.noted)
    (d := counting client limit) (R := Counted) (P := fun x => delivered x.2 ≤ limit)
    (delivered_before client limit)
    (fun m x h => by simpa only [Channel.noted,delivered_append,delivered_sent,Nat.add_zero] using h)
    (fun x y h => counted_receive client limit h) (fun m x y h _ => counted_send client limit m h)
    p hstart hle
  obtain ⟨hsame,hclient⟩ := client.noted_run p s []
  exact ⟨hanswer.trans hsame,hcounted.1.trans hclient⟩

/-! #### Bodies over the limit -/

/-- The server of the application does not raise the error of the middleware. -/
structure Foreign : Prop where
  receive : ∀ s, (client.receive s).1 ≠ .error .bodyTooLarge
  send : ∀ message s, (client.send message s).1 ≠ .error .bodyTooLarge

variable {client}

/-- An application that would read over the limit ends in the error of the middleware. -/
lemma counting_run_over (hclient : Foreign client) {p : App} (hp : LetsThrough p) {x : σ × Notes}
    {y : Counting σ} (hxy : Counted x y) (hle : delivered x.2 ≤ limit)
    (hover : limit < delivered (client.noted.run p x).2.2) :
    ∃ z, (counting client limit).run p y=(.error .bodyTooLarge,z) := by
  induction p generalizing x y with
  | done => exact absurd hover (Nat.not_lt.mpr hle)
  | raise e => exact absurd hover (Nat.not_lt.mpr hle)
  | receive next ih =>
    have hforeign : (client.noted.receive x).1 ≠ .error .bodyTooLarge := by
      rw [(client.noted_receive_client x).1]
      exact hclient.receive x.1
    by_cases hstep : delivered (client.noted.receive x).2.2 ≤ limit
    · obtain ⟨hanswer,hcounted⟩ := counted_receive client limit hxy hstep
      simp only [Channel.run] at hover ⊢
      rw [hanswer]
      exact ih _ (hp.2 _ hforeign) hcounted hstep hover
    · rcases counting_receive_cases client limit y with
        ⟨e,s,hs,-⟩ | ⟨message,s,hs,hfits,-⟩ | ⟨message,s,-,-,hy⟩
      · rw [hxy.1] at hs
        rw [client.noted_receive_error hs] at hstep
        exact absurd hle hstep
      · rw [hxy.1] at hs
        rw [client.noted_receive_ok hs,delivered_append,delivered_received] at hstep
        have := hxy.2
        omega
      · simp only [Channel.run,hy,hp.1]
        exact ⟨_,rfl⟩
  | send message next ih =>
    obtain ⟨hanswer,hcounted⟩ := counted_send client limit message hxy
    simp only [Channel.run] at hover ⊢
    rw [hanswer]
    refine ih _ (hp _ (hclient.send message x.1)) hcounted ?_ hover
    simpa only [Channel.noted,delivered_append,delivered_sent,Nat.add_zero] using hle

variable (client)

/-! #### One response -/

/-- Notes on both sides of the counting channel have the same response starts, and none before the
flag is set. -/
def SameStarts (x : Counting (σ × Notes)) (y : Counting σ × Notes) : Prop :=
  x.client.1=y.1.client ∧ x.received=y.1.received ∧ x.responseStarted=y.1.responseStarted ∧
  responseStarts x.client.2=responseStarts y.2 ∧
  (x.responseStarted=false → responseStarts x.client.2=0)

lemma responseStarts_receive {τ : Type} (c : Client τ) (x : τ × Notes) :
    responseStarts (c.noted.receive x).2.2=responseStarts x.2 := by
  rcases h : c.receive x.1 with ⟨e | message,s⟩
  · rw [c.noted_receive_error h]
  · rw [c.noted_receive_ok h,responseStarts_append,responseStarts_received,Nat.add_zero]

/-- The answer and the count depend only on what the client gives and on the count. -/
lemma counting_receive_congr {τ : Type} {client : Client σ} {client' : Client τ} {x : Counting σ}
    {y : Counting τ} (hanswer : (client'.receive y.client).1=(client.receive x.client).1)
    (hreceived : y.received=x.received) :
    ((counting client' limit).receive y).1=((counting client limit).receive x).1 ∧
    ((counting client' limit).receive y).2.received=((counting client limit).receive x).2.received := by
  unfold counting
  dsimp only
  rcases hx : client.receive x.client with ⟨e | message,s⟩
  all_goals
    rw [hx] at hanswer
    rcases hy : client'.receive y.client with ⟨e' | message',s'⟩
    all_goals
      rw [hy] at hanswer
      cases hanswer
  · exact ⟨rfl,hreceived⟩
  · dsimp only
    rw [hreceived]
    split_ifs <;> simp

lemma counting_receive_kept (x : Counting σ) :
    ((counting client limit).receive x).2.client=(client.receive x.client).2 ∧
    ((counting client limit).receive x).2.responseStarted=x.responseStarted := by
  rcases counting_receive_cases client limit x with
    ⟨e,s,hs,hx⟩ | ⟨message,s,hs,-,hx⟩ | ⟨message,s,hs,-,hx⟩ <;> simp [hs,hx]

lemma sameStarts_receive {x : Counting (σ × Notes)} {y : Counting σ × Notes} (h : SameStarts x y) :
    ((counting client limit).noted.receive y).1=((counting client.noted limit).receive x).1 ∧
      SameStarts ((counting client.noted limit).receive x).2
        ((counting client limit).noted.receive y).2 := by
  obtain ⟨hclient,hreceived,hflag,hstarts,hnone⟩ := h
  obtain ⟨hanswer,hsame⟩ := client.noted_receive_client x.client
  rw [hclient] at hanswer hsame
  have hanswer' : (client.receive y.1.client).1=(client.noted.receive x.client).1 := hanswer.symm
  obtain ⟨hans,hrec⟩ := counting_receive_congr limit hanswer' hreceived.symm
  obtain ⟨hynoted,hystate⟩ := (counting client limit).noted_receive_client y
  obtain ⟨hxclient,hxflag⟩ := counting_receive_kept client.noted limit x
  obtain ⟨hyclient,hyflag⟩ := counting_receive_kept client limit y.1
  refine ⟨hynoted.trans hans,?_,?_,?_,?_,?_⟩
  · rw [hxclient,hystate,hyclient,hsame]
  · rw [hystate,hrec]
  · rw [hxflag,hystate,hyflag,hflag]
  · rw [hxclient,responseStarts_receive,responseStarts_receive,hstarts]
  · rw [hxclient,hxflag,responseStarts_receive]
    exact hnone

lemma sameStarts_send (message : Sent) {x : Counting (σ × Notes)} {y : Counting σ × Notes}
    (h : SameStarts x y) :
    ((counting client limit).noted.send message y).1=
      ((counting client.noted limit).send message x).1 ∧
      SameStarts ((counting client.noted limit).send message x).2
        ((counting client limit).noted.send message y).2 := by
  obtain ⟨hclient,hreceived,hflag,hstarts,hnone⟩ := h
  simp only [counting,Channel.noted,SameStarts,hclient,hreceived,hflag,responseStarts_append,hstarts,
    true_and,responseStarts_sent]
  intro hfalse
  obtain ⟨hstarted,hmessage⟩ := Bool.or_eq_false_iff.mp hfalse
  rw [← hstarts,hnone (hflag.trans hstarted),hmessage]
  rfl

/-- Messages are sent in order, until the client fails. -/
lemma sendAll_notes (messages : List Sent) (x : σ × Notes) :
    ∃ more, more <+: messages ∧
      (client.noted.run (sendAll messages) x).2.2=x.2 ++ more.map Passed.sent := by
  induction messages generalizing x with
  | nil => exact ⟨[],List.prefix_rfl,(List.append_nil _).symm⟩
  | cons message messages ih =>
    simp only [sendAll,Channel.run]
    split
    · exact ⟨[message],List.prefix_append [message] messages,rfl⟩
    · obtain ⟨more,hmore,hnotes⟩ := ih (client.noted.send message x).2
      refine ⟨message::more,(List.cons_prefix_cons).mpr ⟨rfl,hmore⟩,hnotes.trans ?_⟩
      simp [Channel.noted]

lemma responseStarts_sends (messages : List Sent) :
    responseStarts (messages.map Passed.sent)=messages.countP Sent.isStart := by
  rw [responseStarts,List.countP_map]
  rfl

lemma responseStarts_reject (x : σ × Notes) :
    responseStarts (client.noted.run reject x).2.2 ≤ responseStarts x.2+1 := by
  obtain ⟨more,hmore,hnotes⟩ := sendAll_notes client
    [.start 413 [(text "content-length",text (toString tooLargeBody.length)),
      (text "content-type",text "application/json")],.body tooLargeBody false] x
  have hcount := hmore.sublist.countP_le (p := Sent.isStart)
  rw [reject,hnotes,responseStarts_append,responseStarts_sends]
  exact Nat.add_le_add_left hcount _

end Law

section Middleware
variable {σ : Type} (app : Scope → App) (client : Client σ) (maxUploadBytes maxJsonBytes : ℕ)
  {scope : Scope}

/-- The header names no length, or one within the limit. -/
def DeclaredWithin (limit : ℕ) (scope : Scope) : Prop :=
  isdigit (scope.header (text "content-length"))=false ∨
    ∃ n ≤ limit, int? (scope.header (text "content-length"))=some n

variable {app client} in
lemma maxBodySize_eq_handle (hhttp : scope.type="http") (hmethod : scope.method ∉ bodylessMethods)
    (hdeclared : DeclaredWithin (limitFor maxUploadBytes maxJsonBytes scope) scope) (s : σ) :
    maxBodySize maxUploadBytes maxJsonBytes app client scope s=
      handle client (stream maxUploadBytes maxJsonBytes app client scope s) := by
  have hscope : ¬ (scope.type ≠ "http" ∨ scope.method ∈ bodylessMethods) := by simp [hhttp,hmethod]
  rw [maxBodySize,if_neg hscope]
  dsimp only
  obtain hnot | ⟨n,hn,hlength⟩ := hdeclared
  · rw [if_neg (by simp [hnot])]
  · split_ifs with hdigit
    · simp only [hlength]
      rw [if_neg (Nat.not_lt.mpr hn)]
    · rfl

lemma handle_of_ne {answer : Except HttpError Unit} (h : answer ≠ .error .bodyTooLarge)
    (x : Counting σ) : handle client (answer,x)=(answer,x.client) := by
  unfold handle
  split
  · rename_i heq
    cases heq
    exact absurd rfl h
  · rename_i heq
    cases heq
    rfl

lemma responseStarts_handle {result : Except HttpError Unit × Counting (σ × Notes)} {n : ℕ}
    (hstarts : responseStarts result.2.client.2=n)
    (hnone : result.2.responseStarted=false → responseStarts result.2.client.2=0) :
    responseStarts (handle client.noted result).2.2 ≤ max 1 n := by
  obtain ⟨answer,x⟩ := result
  by_cases hlarge : answer=.error .bodyTooLarge ∧ x.responseStarted=false
  · obtain ⟨rfl,hflag⟩ := hlarge
    have hreject := responseStarts_reject client x.client
    rw [hnone hflag] at hreject
    simp only [handle,hflag,Bool.false_eq_true,if_false]
    exact hreject.trans (le_max_left _ _)
  · have heq : handle client.noted (answer,x)=(answer,x.client) := by
      by_cases hanswer : answer=.error .bodyTooLarge
      · subst hanswer
        have hflag : x.responseStarted=true := by simpa using hlarge
        simp only [handle,hflag,if_true]
      · exact handle_of_ne _ hanswer x
    rw [heq]
    exact hstarts.le.trans (le_max_right _ _)

end Middleware

/-- A client that sends the messages it has, and takes any response. -/
def sender : Client (List Message) where
  receive
    | [] => (.ok ⟨"http.disconnect",none,false⟩,[])
    | message::messages => (.ok message,messages)
  send _ messages := (.ok (),messages)

/-- The application reads one message and answers. -/
def readOnce (_ : Scope) : App := .receive fun
  | .error e => .raise e
  | .ok _ => sendAll [.start 200 [],.body [] false]

end VbApi.Http
