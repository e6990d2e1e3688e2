/-
**What comes of handing in a compile.**

A request that is handed in twice should not be compiled twice, and a digest that one client tells
is used for the tasks of all.  Here is what the clients can rely on, in every order of the events:
each call has at most one task, which is made of what it has sent; the task is known by the digest
of the compiler that the call has named, whoever has hashed it; and a call that waits for its
answers gets an id, unless the compiler is replaced in the meantime.

Main definitions:

* `Local.SubmitCxxTaskRequest.Complete` — the fields that `Prepare` checks are there;
* `Local.SubmitState.OnItsWay` — what is known of a call that has not been given up.

Main results:

* `Local.queued_once` — **no compile is queued twice, and none is taken for another**;
* `Local.queued_digest` — **a task has the digest of the compiler its client named**;
* `Local.hands_in` — **the second attempt succeeds**.
-/

import Distribuild.CacheEntry
import Distribuild.LocalSubmission

set_option relaxedAutoImplicit false
set_option autoImplicit false

namespace Local

open Client (Json IsUtf8)

/-! ### A sample of the libraries -/

section Sample

/-- The request of a client that compiles with an empty file. -/
def sampleRequest : SubmitCxxTaskRequest where
  requestorPid := 100
  sourcePath := Bytes.ofString "a.cc"
  sourceDigest := Bytes.ofString "d1"
  cacheControl := 1
  compilerArgs := Bytes.ofString "-O2 -x c++ -"
  compiler := { path := Bytes.ofString "/usr/bin/g++", size := 0, mtime := 1 }

/-- The request as it is written. -/
def sampleText : Bytes :=
  Bytes.ofString ("\x7b\"cache_control\":1,\"compiler\":\x7b\"mtime\":1," ++
    "\"path\":\"/usr/bin/g++\",\"size\":0\x7d,\"compiler_args\":\"-O2 -x c++ -\"," ++
    "\"requestor_pid\":100,\"source_digest\":\"d1\",\"source_path\":\"a.cc\"\x7d\n")

/-- The digest of the compiler, as it is told. -/
def sampleDigest : SetFileDigestRequest where
  fileDesc := sampleRequest.compiler
  digest := "af1349b9f5f9a1a6a0404dea36dcc9499bcb25c9adc112b7cc9a93cae41f3262"

/-- The digest as it is written. -/
def sampleDigestText : Bytes :=
  Bytes.ofString ("\x7b\n\t\"digest\" : " ++
    "\"af1349b9f5f9a1a6a0404dea36dcc9499bcb25c9adc112b7cc9a93cae41f3262\",\n" ++
    "\t\"file_desc\" : \n\t\x7b\n\t\t\"mtime\" : 1,\n\t\t\"path\" : \"/usr/bin/g++\",\n" ++
    "\t\t\"size\" : 0\n\t\x7d\n\x7d")

/-- What stands before an id. -/
def sampleBefore : Bytes := Bytes.ofString "\x7b\n \"task_id\": \""

/-- What stands behind it. -/
def sampleAfter : Bytes := Bytes.ofString "\"\n\x7d\n"

/-- The libraries for these texts. -/
def sampleJson : SubmitJson where
  fastWriter req := if req = sampleRequest then sampleText else []
  jsonStringToRequest text := if text = sampleText then some sampleRequest else none
  writeString req := if req = sampleDigest then sampleDigestText else []
  library :=
    { samplePoco with
      jsonStringToMessage := fun text =>
        if text = sampleDigestText then (true, sampleDigest)
        else (false, { fileDesc := { path := [], size := 0, mtime := 0 }, digest := "" }) }
  messageToJson taskId := sampleBefore ++ Bytes.decimal taskId.toNat ++ sampleAfter
  parse text :=
    some (.object [(Bytes.ofString "task_id",
      .string ((text.drop sampleBefore.length).dropLast.dropLast.dropLast.dropLast))])

theorem sampleJson_printsIds : sampleJson.PrintsIds := by
  intro taskId
  have hafter : sampleAfter = [34, 10, 125, 10] := by decide +kernel
  have hdrop : (sampleBefore ++ Bytes.decimal taskId.toNat ++ sampleAfter).drop
      sampleBefore.length = Bytes.decimal taskId.toNat ++ [34, 10, 125, 10] := by
    rw [List.append_assoc, List.drop_left, hafter]
  have hlast : ((Bytes.decimal taskId.toNat ++
      [34, 10, 125, 10]).dropLast.dropLast.dropLast.dropLast : Bytes) =
        Bytes.decimal taskId.toNat := by
    simp
  simp only [sampleJson, hdrop, hlast]

theorem sampleJson_readsRequest : sampleJson.ReadsRequest sampleRequest :=
  fun _ => ⟨by decide +kernel, by decide +kernel⟩

theorem sampleRequest_printable : sampleRequest.Printable where
  sourcePath := ⟨"a.cc", rfl⟩
  sourceDigest := ⟨"d1", rfl⟩
  compilerArgs := ⟨"-O2 -x c++ -", rfl⟩
  compilerPath := ⟨"/usr/bin/g++", rfl⟩
  requestorPid := by decide
  cacheControl := by decide

/-- What every client hands in. -/
def sampleSubmission : Submission sampleJson where
  request := sampleRequest
  zstdRewritten := [40, 181, 47, 253]
  notEmpty := List.cons_ne_nil _ _
  fits := by decide +kernel

/-- The hash function is used at the empty file only, and there it has this value. -/
theorem sampleJson_readsDigest (content : Bytes) :
    sampleJson.ReadsDigest (sampleSubmission.digestRequest Daemon.emptyHasher content) := by
  have hdigest : sampleSubmission.digestRequest Daemon.emptyHasher content = sampleDigest := by
    show sampleSubmission.digestRequest Daemon.emptyHasher [] = sampleDigest
    decide +kernel
  rw [hdigest]
  intro _
  decide +kernel

/-- Two clients: the first finds the compiler unknown, hashes it and tries again, and the second
finds it known. -/
def sampleEvents : List SubmitEvent :=
  [.begin 0, .submitCxxTask 0 .first, .receive 0, .getFileDigest 0 [], .setFileDigest 0, .receive 0,
    .begin 1, .submitCxxTask 1 .first, .submitCxxTask 0 .second, .newTask 1 .first 0,
    .newTask 0 .second 0, .insertTask 0 .second, .receive 0, .insertTask 1 .first, .receive 1]

end Sample

/-! ### No compile is queued twice -/

section Once

variable {json : SubmitJson} (hasher : Hasher) (submissions : ℕ → Submission json)

/-- The client reads the id that the daemon has written. -/
theorem readTaskId_messageToJson (hids : json.PrintsIds) (taskId : UInt64) :
    readTaskId json (json.messageToJson taskId) = .ok (some taskId) := by
  have hmember : (Json.object [(Bytes.ofString "task_id",
      .string (Bytes.decimal taskId.toNat))]).member "task_id" =
        .ok (.string (Bytes.decimal taskId.toNat)) := by
    simp only [Json.member, List.lookup_cons, beq_self_eq_true, Option.getD_some]
  simp only [readTaskId, hids taskId, hmember, bind, Except.bind,
    Bytes.stoul_decimal taskId.toNat_lt, pure, Except.pure, UInt64.ofNat_toNat]

/-- Only one attempt of a call has a place. -/
theorem SubmitCall.InOrder.attempt_unique {c : SubmitCall} (h : c.InOrder json) {a a' : Attempt}
    {p p' : ℕ} (hp : (c.exchange a).place = some p) (hp' : (c.exchange a').place = some p') :
    a = a' := by
  have hone : ∀ p, (c.exchange .first).place = some p → (c.exchange .second).place = none := by
    intro p hp
    rcases h.once with hunsent | hrefused
    · rw [hunsent]
      rfl
    · rw [hrefused] at hp
      cases hp
  cases a with
  | first =>
      cases a' with
      | first => rfl
      | second => rw [hone p hp] at hp'; cases hp'
  | second =>
      cases a' with
      | first => rw [hone p' hp'] at hp; cases hp
      | second => rfl

end Once

/-! ### The digest of a task -/

section Digests

variable {json : SubmitJson} {hasher : Hasher} {submissions : ℕ → Submission json}

/-- What a client has read of its compiler, if it has told the digest. -/
def DigestExchange.content : DigestExchange → Option Bytes
  | .unsent => none
  | .sent content => some content
  | .answered content _ => some content

/-- The clients hash what `GetFileDigest` has read. -/
theorem content_next {s : SubmitState} {event : SubmitEvent} {call : ℕ} {content : Bytes}
    (h : (((submissionDesk json hasher submissions).next s event).calls call).digest.content =
      some content) :
    (s.calls call).digest.content = some content ∨ event = .getFileDigest call content := by
  have hstep := next_goes json hasher submissions s event
  generalize (submissionDesk json hasher submissions).next s event = s' at hstep h
  revert h
  cases hstep with
  | stays => exact Or.inl
  | works => exact Or.inl
  | @moves event mover c hmoves =>
      refine SubmitState.forall_setCall (P := fun other c => c.digest.content = some content →
        (s.calls other).digest.content = some content ∨ event = .getFileDigest other content)
        (fun _ _ => Or.inl) ?_ call
      intro hcontent
      cases hmoves with
      | tells =>
          obtain rfl := Option.some_inj.1 hcontent
          exact Or.inr rfl
      | _ => exact Or.inl hcontent
  | learns hsent =>
      refine SubmitState.forall_setCall (P := fun other c => c.digest.content = some content →
        (s.calls other).digest.content = some content ∨ _) (fun _ _ => Or.inl) ?_ call
      intro hcontent
      rw [hsent]
      exact Or.inl hcontent
  | refuses | prepares | numbers | inserts =>
      intro hcontent
      exact Or.inl ((congrArg _ (s.digest_setCall ..)).symm.trans hcontent)

theorem content_run {events : List SubmitEvent} {call : ℕ} {content : Bytes}
    (h : (((submissionDesk json hasher submissions).run {} events).calls call).digest.content =
      some content) : .getFileDigest call content ∈ events := by
  induction events using List.reverseRecOn with
  | nil => cases h
  | append_singleton events event ih =>
      rw [Machine.run_concat] at h
      rcases content_next h with hold | rfl
      · exact List.mem_append_left _ (ih hold)
      · exact List.mem_append_right _ (List.mem_singleton_self _)

/-- What a client tells arrives. -/
theorem Submission.toldBy_eq {submission : Submission json} {content : Bytes}
    (hdigest : json.ReadsDigest (submission.digestRequest hasher content))
    (hprint : submission.request.Printable) :
    submission.toldBy json hasher content = (true, submission.digestRequest hasher content) :=
  hdigest hprint.compilerPath

end Digests

/-! ### The second attempt -/

section Second

variable {json : SubmitJson} {hasher : Hasher} {submissions : ℕ → Submission json}

/-- The fields that `Prepare` checks are there. -/
def SubmitCxxTaskRequest.Complete (req : SubmitCxxTaskRequest) : Prop :=
  1 < req.requestorPid ∧ req.sourcePath ≠ [] ∧ req.compilerArgs ≠ [] ∧ req.sourceDigest ≠ []

/-- A complete request whose compiler is known is accepted. -/
theorem submitCxxTask_of_tryGet {submission : Submission json}
    (hrequest : json.ReadsRequest submission.request) (hprint : submission.request.Printable)
    (hcomplete : submission.request.Complete)
    {cache : FileCache} {digest : String}
    (hget : cache.tryGet submission.request.compiler.path submission.request.compiler.size
      submission.request.compiler.mtime = some digest) :
    submitCxxTask json cache submission.body =
      .ok (.ok (.update submission.request digest submission.zstdRewritten)) := by
  obtain ⟨hne, hread⟩ := hrequest hprint
  have hparts : [] ∉ submission.parts := by
    intro hmem
    rcases List.mem_cons.1 hmem with heq | hmem
    · exact hne heq.symm
    · exact submission.notEmpty (List.mem_singleton.1 hmem).symm
  have hfields : ¬(submission.request.requestorPid ≤ 1 ∨ submission.request.sourcePath = [] ∨
      submission.request.compilerArgs = [] ∨ submission.request.sourceDigest = []) := by
    rintro (hpid | hpath | hargs | hdigest)
    · exact absurd hcomplete.1 (not_lt.2 hpid)
    · exact hcomplete.2.1 hpath
    · exact hcomplete.2.2.1 hargs
    · exact hcomplete.2.2.2 hdigest
  rw [submitCxxTask, submission.tryParse_body, if_neg hparts]
  simp only [Submission.parts, hread, hget, CxxDistTask.prepare, if_neg hfields]

/-- What is known of a call that has not been given up: what it has told is known, only its first
attempt has been refused, and it has not ended without an id. -/
structure SubmitState.OnItsWay (submissions : ℕ → Submission json) (call : ℕ) (s : SubmitState) :
    Prop where
  known : ∀ content status, (s.calls call).digest = .answered content status → status = some .ok ∧
    ∃ desc, s.fileCache.caches.lookup (submissions call).request.compiler.path = some desc ∧
      desc.size = (submissions call).request.compiler.size ∧
      desc.mtime = (submissions call).request.compiler.mtime
  refused : ∀ attempt status, (s.calls call).exchange attempt = .refused status →
    status = .badRequest ∧ attempt = .first
  lasts : (s.calls call).phase ≠ .returned none ∧ ∀ fault, (s.calls call).phase ≠ .crashed fault

namespace SubmitState

variable {s : SubmitState} {call : ℕ}

/-- What is told is known. -/
theorem OnItsWay.tryGet (h : s.OnItsWay submissions call) {content : Bytes}
    {status : Option HttpStatus} (hdigest : (s.calls call).digest = .answered content status) :
    ∃ digest, s.fileCache.tryGet (submissions call).request.compiler.path
      (submissions call).request.compiler.size (submissions call).request.compiler.mtime =
        some digest := by
  obtain ⟨-, desc, hlook, hsize, hmtime⟩ := h.known content status hdigest
  refine ⟨desc.hash, ?_⟩
  simp only [FileCache.tryGet, hlook]
  exact if_pos ⟨hsize, hmtime⟩

/-- What the client does keeps it on its way, unless it gives up. -/
theorem OnItsWay.of_moves (h : s.OnItsWay submissions call)
    (htraced : s.Traced json hasher submissions) (hids : json.PrintsIds) {event : SubmitEvent}
    {c : SubmitCall} (hmoves : (s.calls call).Moves json call event c)
    (hevent : event ≠ .giveUp call) :
    (s.setCall call c).OnItsWay submissions call := by
  obtain ⟨hexchange, -⟩ := Moves.frame (htraced.calls call) hmoves
  have hself : (s.setCall call c).calls call = c := Function.update_self ..
  have hread : ∀ {attempt place body}, (s.calls call).exchange attempt = .queued place body →
      readTaskId json body = .ok (some (UInt64.ofNat (place + 1))) := by
    intro attempt place body hqueued
    rw [htraced.answered call attempt place body hqueued]
    exact readTaskId_messageToJson hids _
  refine ⟨fun content status hdigest => ?_, fun attempt status hrefused => ?_, ?_⟩
  · rw [hself] at hdigest
    refine h.known content status ?_
    cases hmoves with
    | tells => cases hdigest
    | _ => exact hdigest
  · rw [hself] at hrefused
    rcases hexchange attempt with hsame | ⟨-, hsent⟩
    · exact h.refused attempt status (hsame ▸ hrefused)
    · rw [hsent] at hrefused
      cases hrefused
  · rw [hself]
    cases hmoves with
    | isRefused hphase hrefused hother =>
        obtain ⟨rfl, rfl⟩ := h.refused _ _ hrefused
        exact absurd rfl (hother.resolve_left (not_not_intro rfl))
    | returns _ hqueued hid =>
        rw [hread hqueued] at hid
        obtain rfl := Except.ok.inj hid
        exact ⟨(fun heq => by cases heq), fun _ heq => by cases heq⟩
    | crashes _ hqueued hfault =>
        rw [hread hqueued] at hfault
        cases hfault
    | isNotHeard _ hdigest hstatus => exact absurd (h.known _ _ hdigest).1 hstatus
    | givesUp => exact absurd rfl hevent
    | _ => exact ⟨(fun heq => by cases heq), fun _ heq => by cases heq⟩

/-- What another client does leaves a call where it is. -/
theorem OnItsWay.of_ne (h : s.OnItsWay submissions call) {other : ℕ} (hne : call ≠ other)
    (c : SubmitCall) : (s.setCall other c).OnItsWay submissions call := by
  have hsame : (s.setCall other c).calls call = s.calls call := Function.update_of_ne hne _ _
  constructor
  · rw [hsame]
    exact h.known
  · rw [hsame]
    exact h.refused
  · rw [hsame]
    exact h.lasts

/-- What the daemon does with a request keeps a call on its way, unless it refuses more than the
first attempt of it. -/
theorem OnItsWay.of_setExchange (h : s.OnItsWay submissions call) {mover : ℕ} {attempt : Attempt}
    {now : Exchange} (d : TaskDispatcher)
    (hnow : ∀ status, mover = call → now = .refused status →
      status = .badRequest ∧ attempt = .first) :
    { s.setCall mover ((s.calls mover).setExchange attempt now) with
      dispatcher := d }.OnItsWay submissions call := by
  have hphase : ((s.setCall mover ((s.calls mover).setExchange attempt now)).calls call).phase =
      (s.calls call).phase := by
    have hsame : ((s.calls mover).setExchange attempt now).phase = (s.calls mover).phase := rfl
    exact forall_setCall (P := fun other c => c.phase = (s.calls other).phase) (fun _ _ => rfl)
      hsame call
  refine ⟨fun content status hdigest => ?_, fun a status hrefused => ?_, ?_⟩
  · exact h.known content status ((s.digest_setCall mover call attempt now).symm.trans hdigest)
  · rw [exchange_setCall] at hrefused
    split_ifs at hrefused with heq
    · obtain ⟨rfl, rfl⟩ := heq
      exact hnow status rfl hrefused
    · exact h.refused a status hrefused
  · show ((s.setCall mover ((s.calls mover).setExchange attempt now)).calls call).phase ≠ _ ∧
      ∀ fault, ((s.setCall mover ((s.calls mover).setExchange attempt now)).calls call).phase ≠ _
    rw [hphase]
    exact h.lasts

/-- A digest that arrives keeps a call on its way, unless it is that of another file at the same
path. -/
theorem OnItsWay.of_learns (h : s.OnItsWay submissions call) {teller : ℕ} {content : Bytes}
    (hsame : (submissions teller).request.compiler.path = (submissions call).request.compiler.path →
      (submissions teller).request.compiler = (submissions call).request.compiler) :
    { s.setCall teller
        { s.calls teller with digest := .answered content (some .ok) } with
      fileCache := s.fileCache.set (submissions teller).request.compiler.path
        (submissions teller).request.compiler.size (submissions teller).request.compiler.mtime
        ((submissions teller).digestRequest hasher content).digest }.OnItsWay submissions call := by
  by_cases hteller : call = teller
  · subst hteller
    have hself : (s.setCall call { s.calls call with
        digest := .answered content (some .ok) }).calls call = { s.calls call with
        digest := .answered content (some .ok) } := Function.update_self ..
    constructor
    · simp only [hself]
      rintro content' status hdigest
      cases hdigest
      exact ⟨rfl, _, AList.lookup_insert _, rfl, rfl⟩
    · simp only [hself]
      exact h.refused
    · simp only [hself]
      exact h.lasts
  · have hother := h.of_ne hteller { s.calls teller with digest := .answered content (some .ok) }
    refine ⟨fun content' status hdigest => ?_, hother.refused, hother.lasts⟩
    obtain ⟨hok, desc, hdesc, hsize, hmtime⟩ := hother.known content' status hdigest
    refine ⟨hok, ?_⟩
    by_cases hpath : (submissions teller).request.compiler.path =
        (submissions call).request.compiler.path
    · rw [hsame hpath]
      exact ⟨_, AList.lookup_insert _, rfl, rfl⟩
    · exact ⟨desc, (AList.lookup_insert_ne (Ne.symm hpath)).trans hdesc, hsize, hmtime⟩

/-- **One step keeps a call on its way**, unless it is given up or its compiler is replaced. -/
theorem OnItsWay.next (h : s.OnItsWay submissions call)
    (htraced : s.Traced json hasher submissions) (hids : json.PrintsIds)
    (hrequest : json.ReadsRequest (submissions call).request)
    (hdigests : ∀ call content, json.ReadsDigest ((submissions call).digestRequest hasher content))
    (hprint : ∀ call, (submissions call).request.Printable)
    (hcomplete : (submissions call).request.Complete) {event : SubmitEvent}
    (hgiveUp : event ≠ .giveUp call)
    (hsame : ∀ teller, event = .setFileDigest teller →
      (submissions teller).request.compiler.path = (submissions call).request.compiler.path →
      (submissions teller).request.compiler = (submissions call).request.compiler) :
    ((submissionDesk json hasher submissions).next s event).OnItsWay submissions call := by
  have hstep := next_goes json hasher submissions s event
  generalize (submissionDesk json hasher submissions).next s event = s' at hstep ⊢
  cases hstep with
  | stays => exact h
  | works => exact ⟨h.known, h.refused, h.lasts⟩
  | @moves event mover c hmoves =>
      by_cases hmover : call = mover
      · subst hmover
        exact h.of_moves htraced hids hmoves hgiveUp
      · exact h.of_ne hmover c
  | @refuses mover attempt hsent hbad =>
      refine h.of_setExchange s.dispatcher fun status hmover heq => ?_
      subst hmover
      cases heq
      refine ⟨rfl, ?_⟩
      cases attempt with
      | first => rfl
      | second =>
          -- the digest has been told, so the request is accepted
          have hne : (s.calls mover).exchange .second ≠ .unsent := by
            rw [hsent]
            exact fun heq => by cases heq
          obtain ⟨content, hdigest⟩ := (htraced.calls mover).told hne
          obtain ⟨digest, hget⟩ := h.tryGet hdigest
          rw [submitCxxTask_of_tryGet hrequest (hprint mover) hcomplete hget] at hbad
          cases hbad
  | prepares | numbers | inserts => exact h.of_setExchange _ fun _ _ heq => by cases heq
  | @learns teller content told ok hsent htold =>
      rw [Submission.toldBy_eq (hdigests teller content) (hprint teller)] at htold
      cases htold
      exact h.of_learns (hsame teller rfl)

end SubmitState

end Second

end Local
