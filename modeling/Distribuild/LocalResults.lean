/-
**What a client gets.**

Results of compiles are taken out of the daemon when they are handed over, and each of them only
once.  Here is what this means for the clients, in every order of the events: what a client gets is
what the task that was queued for it has ended with, and nobody gets the result of another; and a
client that goes on asking gets it, unless somebody else takes it away or the daemon drops it.  No
request misses a result that is there.

Main definitions:

* `Local.CollectState.Delivered` — the output of the task of a call has been handed over;
* `Local.Sendable` — an output that the client can read.

Main results:

* `Local.collects_own` — **what a client gets is the result of its own compile**;
* `Local.collects` — **a client that goes on asking gets it**.
-/

import Distribuild.LocalCollecting

set_option relaxedAutoImplicit false
set_option autoImplicit false

/-! ### Reading with more fuel -/

namespace Common

/-- What is decompressed with some fuel is decompressed with more. -/
theorem returns_of_zstdDecompress {z : Compressor} {data : Bytes} {fuel : ℕ}
    {content : Option Bytes} (h : zstdDecompress z data fuel = some content) :
    Loop.Returns (fun fuel => zstdDecompress z data fuel) content := by
  obtain ⟨read, hread, hrest⟩ := Option.bind_eq_some_iff.1 h
  refine (Loop.returns_of_run hread).bind ?_
  cases read with
  | none => exact Loop.Returns.of_forall fun _ => hrest
  | some s => exact Loop.returns_of_run hrest

end Common

namespace Client

variable {z : Compressor} {json : ResponseJson} {fuel : ℕ}

theorem returns_of_outputFiles {parsed : List Bytes} {i : ℕ} {elements : List Json}
    {files : Except Fault (Option (List (Bytes × Bytes)))}
    (h : outputFiles z fuel parsed i elements = some files) :
    Loop.Returns (fun fuel => outputFiles z fuel parsed i elements) files := by
  induction elements generalizing i files with
  | nil => exact Loop.Returns.of_forall fun _ => h
  | cons element elements ih =>
      simp only [outputFiles] at h ⊢
      cases hpath : element.asString with
      | error fault =>
          simp only [hpath] at h ⊢
          exact Loop.Returns.of_forall fun _ => h
      | ok path =>
          cases hpart : parsed[i + 1]? with
          | none =>
              simp only [hpath, hpart] at h ⊢
              exact Loop.Returns.of_forall fun _ => h
          | some part =>
              simp only [hpath, hpart] at h ⊢
              obtain ⟨content, hcontent, hrest⟩ := Option.bind_eq_some_iff.1 h
              refine (Common.returns_of_zstdDecompress hcontent).bind ?_
              cases content with
              | none => exact Loop.Returns.of_forall fun _ => hrest
              | some content =>
                  obtain ⟨files', hfiles, rfl⟩ := Option.map_eq_some_iff.1 hrest
                  exact (ih hfiles).map _

theorem returns_of_readBody {body : Bytes} {outcome : Except Fault CompileResult}
    (h : readBody z json fuel body = some outcome) :
    Loop.Returns (fun fuel => readBody z json fuel body) outcome := by
  have hfixed : (∀ fuel', readBody z json fuel' body = readBody z json fuel body) →
      Loop.Returns (fun fuel => readBody z json fuel body) outcome := fun hsame =>
    Loop.Returns.of_forall fun fuel' => (hsame fuel').trans h
  cases hparts : Common.tryParseMultiChunk body with
  | error fault => exact hfixed fun _ => by simp only [readBody, hparts]
  | ok parts =>
      cases parts with
      | none => exact hfixed fun _ => by simp only [readBody, hparts]
      | some parts =>
          cases parts with
          | nil => exact hfixed fun _ => by simp only [readBody, hparts]
          | cons front parts =>
              cases hparse : json.parse front with
              | none => exact hfixed fun _ => by simp only [readBody, hparts, hparse]
              | some jsonValue =>
                  cases helements : jsonValue.member "file_extensions" >>= Json.elements with
                  | error fault =>
                      exact hfixed fun _ => by simp only [readBody, hparts, hparse, helements]
                  | ok elements =>
                      simp only [readBody, hparts, hparse, helements] at h ⊢
                      obtain ⟨files, hfiles, rfl⟩ := Option.map_eq_some_iff.1 h
                      exact (returns_of_outputFiles hfiles).map _

end Client

namespace Local

open Client (ResponseJson CompileResult IsUtf8)

/-! ### The output of a task -/

/-- The body of the answer for an output. -/
def answerBody (json : ResponseJson) (output : DistOutput) : Bytes :=
  Common.makeMultiChunk (json.messageToJson (rebuildOutput output).1 :: (rebuildOutput output).2)

/-- An output that the client can read: it has frames of the files, whose names are texts, the exit
code is one, the response can be written and the answer fits into memory. -/
structure Sendable (z : Compressor) (json : ResponseJson) (files : List (Bytes × Bytes))
    (output : DistOutput) : Prop where
  compressed : Cloud.Compressed z files output.outputFiles
  names : ∀ file ∈ files, IsUtf8 file.1
  exitCode : -2 ^ 31 ≤ output.exitCode ∧ output.exitCode < 2 ^ 31
  inverse : json.InverseAt (rebuildOutput output).1
  fits : (json.messageToJson (rebuildOutput output).1 ::
    (rebuildOutput output).2).flatten.length < 2 ^ 63 - 1

/-- The result for an output with these files.  No files are sent with a negative exit code. -/
def resultFor (files : List (Bytes × Bytes)) (output : DistOutput) : CompileResult where
  exitCode := output.exitCode
  stdOut := output.stdOut
  stdErr := output.stdErr
  outputFiles := if output.exitCode < 0 then [] else files

/-- The client reads what the daemon sends for an output. -/
theorem readBody_answerBody {z : Compressor} (hz : z.Lawful) {json : ResponseJson}
    {files : List (Bytes × Bytes)} {output : DistOutput} (h : Sendable z json files output) :
    Loop.Returns (fun fuel => Client.readBody z json fuel (answerBody json output))
      (.ok (resultFor files output)) := by
  have hinverse := h.inverse
  have hfits := h.fits
  simp only [answerBody, resultFor]
  by_cases hneg : output.exitCode < 0
  · have hrebuild : rebuildOutput output =
        ({ exitCode := output.exitCode, stdOut := output.stdOut, stdErr := output.stdErr }, []) :=
      if_pos hneg
    rw [hrebuild] at hinverse hfits ⊢
    obtain ⟨hprint, hparse⟩ := hinverse fun _ hmem => by cases hmem
    rw [if_pos hneg]
    exact @Client.readBody_eq z hz json _ hprint hparse h.exitCode [] [] .nil rfl hfits
  · have hrebuild : rebuildOutput output =
        ({ exitCode := output.exitCode, stdOut := output.stdOut, stdErr := output.stdErr,
           fileExtensions := output.outputFiles.map fun file => file.1 },
          output.outputFiles.map fun file => file.2) := if_neg hneg
    rw [hrebuild] at hinverse hfits ⊢
    have hnames := h.compressed.suffixes_eq
    obtain ⟨hprint, hparse⟩ := hinverse fun suffix hmem => by
      obtain ⟨file, hfile, rfl⟩ := List.mem_map.1 (hnames ▸ hmem)
      exact h.names file hfile
    rw [if_neg hneg]
    exact Client.readBody_eq hz hprint hparse h.exitCode h.compressed hnames hfits

/-! ### What has been read -/

section Results

variable (json : SubmitJson) (hasher : Hasher) (submissions : ℕ → Submission json)

/-- The output of the task that was queued for a call has been handed over. -/
def CollectState.Delivered (s : CollectState) (call : ℕ) (output : DistOutput) : Prop :=
  ∃ (p k : ℕ) (t : DistTask), s.desk.Queued call p ∧
    s.desk.dispatcher.calls[k]? = some ⟨UInt64.ofNat (p + 1), .returned .ok (some t)⟩ ∧
    s.desk.Asked json hasher submissions call t.task ∧ t.completions = [output]

variable {json hasher submissions} {waitJson : WaitJson} {z : Compressor} {s : CollectState}
  {events : List CollectEvent}

/-- **Where a client has what it has read from**: from its own task, unless it was told that there
is none. -/
theorem CollectState.Followed.delivered
    (h : s.Followed json hasher submissions waitJson z events) (hids : json.PrintsIds)
    (hlen : s.desk.dispatcher.descs.length ≤ 2 ^ 64) {call : ℕ}
    {outcome : Except Fault CompileResult} (hread : s.Read waitJson z call outcome) :
    (∃ output fuel, s.Delivered json hasher submissions call output ∧
        Client.readBody z waitJson.response fuel (answerBody waitJson.response output) =
          some outcome) ∨
      outcome = .ok { exitCode := -1 } ∧ ∃ taskId, s.AsksFor call taskId ∧
        (.desk (.waitFind taskId) ∈ events ∨
          ∃ p, s.desk.Queued call p ∧ s.desk.dispatcher.Late p) := by
  obtain ⟨taskId, response, fuel, hasks, ⟨k, phase, hk, hresponse⟩, hwait⟩ := hread
  obtain ⟨status, task, rfl⟩ := WaitPhase.returned_of_response hresponse
  have hsound := sound_of_reachable h.grounded.reached hlen
  cases task with
  | some t =>
      obtain ⟨rfl, owner, p, output, hid, hqueued, hasked, hcompleted⟩ :=
        h.grounded.taken k taskId status t hk
      obtain ⟨rfl, -⟩ := h.grounded.call_unique hids hlen hasks hqueued hid
      have houtput : t.getOutput = rebuildOutput output := by
        simp only [DistTask.getOutput, hcompleted, List.getLast?_singleton, Option.map_some,
          Option.getD_some]
      have hbody : response = { body := answerBody waitJson.response output } := by
        simp only [WaitPhase.response, httpWaitForTask, houtput, Option.some.injEq] at hresponse
        exact hresponse.symm
      rw [hbody] at hwait
      exact Or.inl ⟨output, fuel, ⟨p, k, t, hqueued, hid ▸ hk, hasked, hcompleted⟩, hwait⟩
  | none =>
      right
      cases status with
      | ok =>
          obtain ⟨-, t, ht, -⟩ := hsound.call k _ hk
          cases ht
      | timeout =>
          obtain rfl := Option.some_inj.1 hresponse
          cases hwait
      | notFound =>
          obtain rfl := Option.some_inj.1 hresponse
          refine ⟨(Option.some_inj.1 hwait).symm, taskId, hasks, ?_⟩
          refine (h.missing k taskId none hk).imp_right ?_
          rintro ⟨p, hid, hlate⟩
          obtain ⟨q, desc, hqueued, -, hq, hsame, -⟩ := h.grounded.place hids hasks
          obtain ⟨desc', hp, -⟩ := id hlate
          obtain rfl : q = p := hsound.place_unique hlen hq hp
            (by rw [hsame, hid, hsound.taskId p desc' hp])
          exact ⟨q, hqueued, hlate⟩

/-- A request that has found its task sees the event exactly if the task is `Done`. -/
theorem CollectState.Followed.event_iff
    (h : s.Followed json hasher submissions waitJson z events) (hids : json.PrintsIds)
    (hlen : s.desk.dispatcher.descs.length ≤ 2 ^ 64) {call k p : ℕ} {taskId : UInt64}
    {msToWait : UInt32} (hasks : s.AsksFor call taskId)
    (hstranger : .desk (.waitFind taskId) ∉ events)
    (hserved : (s.collects call).exchange = .served k msToWait)
    (hk : s.desk.dispatcher.calls[k]? = some ⟨taskId, .found p⟩) :
    ∃ desc, s.desk.dispatcher.descs[p]? = some desc ∧ s.desk.Queued call p ∧
      (desc.completionEvent = true ↔ desc.state = .done) := by
  have hsound := sound_of_reachable h.grounded.reached hlen
  obtain ⟨desc, hp, hid⟩ := hsound.call k _ hk
  obtain ⟨q, desc', hqueued, hqid, hq, hsame, -⟩ := h.grounded.place hids hasks
  obtain rfl : q = p := hsound.place_unique hlen hq hp (hsame.trans hid.symm)
  obtain rfl := Option.some_inj.1 (hp.symm.trans hq)
  have hdesc := hsound.desc q desc hp
  refine ⟨desc, hp, hqueued, fun hset => ?_, fun hdone => ?_⟩
  · have hended : desc.phase = .ended := by
      by_contra hne
      rw [hdesc.event hne] at hset
      cases hset
    exact TaskDesc.fits_of hdesc.fits hended
  · rcases (keeps_of_reachable h.grounded.reached hlen hp).event (hdesc.ended_of_done hdone) with
      hset | ⟨k', w, hk', hw, htook⟩
    · exact hset
    · -- nobody but the client has asked, and its last request is the one that waits
      rw [hsame] at hw
      rcases h.accounted k' w hk' with hmem | ⟨other, hother, haccounts⟩
      · exact absurd (hw ▸ hmem) hstranger
      · obtain ⟨rfl, -⟩ := h.grounded.call_unique hids hlen (hw ▸ hother) hqueued hqid
        rw [hserved] at haccounts
        rcases haccounts with htimeout | hserved' | ⟨response, hanswered, -⟩
        · rw [htimeout] at htook
          cases htook
        · obtain ⟨rfl, -⟩ := WaitExchange.served.inj hserved'
          obtain rfl := Option.some_inj.1 (hk.symm.trans hk')
          cases htook
        · cases hanswered

/-! ### A sample of a run -/

/-- What stands before an id in a request. -/
def sampleAsking : Bytes := Bytes.ofString "\x7b\n\t\"ms_to_wait\" : 10000,\n\t\"task_id\" : "

/-- The response for a compile that has failed. -/
def sampleFailure : WaitForCXXTaskResponse where
  exitCode := 1
  stdErr := Bytes.ofString "e"

/-- The response as it is written. -/
def sampleFailureText : Bytes :=
  Bytes.ofString ("\x7b\n \"exit_code\": 1,\n \"std_out\": \"\",\n \"std_err\": \"e\",\n" ++
    " \"file_extensions\": [],\n \"patches\": []\n\x7d\n")

/-- The libraries for these texts. -/
def sampleWaitJson : WaitJson where
  writeString req :=
    if req.msToWait = 10000 then
      sampleAsking ++ Bytes.decimal req.taskId.toNat ++ Bytes.ofString "\n\x7d"
    else []
  jsonStringToMessage text :=
    match Bytes.stoul ((text.drop sampleAsking.length).dropLast.dropLast) with
    | .ok taskId => .ok { taskId := UInt64.ofNat taskId, msToWait := 10000 }
    | .error _ => .error []
  response :=
    { messageToJson := fun response => if response = sampleFailure then sampleFailureText else []
      parse := fun text =>
        if text = sampleFailureText then some (.document sampleFailure) else none }

theorem sampleWaitJson_readsRequests : sampleWaitJson.ReadsRequests := by
  intro taskId
  have hafter : Bytes.ofString "\n\x7d" = [10, 125] := by decide +kernel
  have hdrop : ((sampleAsking ++ Bytes.decimal taskId.toNat ++ Bytes.ofString "\n\x7d").drop
      sampleAsking.length).dropLast.dropLast = Bytes.decimal taskId.toNat := by
    rw [List.append_assoc, List.drop_left, hafter]
    simp
  simp only [sampleWaitJson, waitRequestFor, if_true, hdrop, Bytes.stoul_decimal taskId.toNat_lt,
    UInt64.ofNat_toNat]

/-- Somebody asks for a task who is no client. -/
def CollectEvent.isStranger : CollectEvent → Bool
  | .desk (.dispatcher (.waitFind _) _) => true
  | _ => false

/-- The second client of `Local.sampleEvents` asks once too early, then its task is performed, and
it asks again. -/
def sampleCollecting : List CollectEvent :=
  sampleEvents.map .desk ++
    [.ask 1, .serve 1, .desk (.dispatcher (.waitEvent 0) rfl), .respond 1, .receive 1 0,
      .desk (.dispatcher (.perform 0 .start) rfl),
      .desk (.dispatcher (.perform 0 (.tryReadCache (.ok none))) rfl),
      .desk (.dispatcher (.perform 0 (.tryGetExistedResult none)) rfl),
      .desk (.dispatcher (.perform 0 .check) rfl),
      .desk (.dispatcher (.perform 0 (.getGrant
        (some { grantId := 5, servantLocation := "10.0.0.1:8080" }))) rfl),
      .desk (.dispatcher (.perform 0 .setReady) rfl),
      .desk (.dispatcher (.perform 0 (.startTask (some 3))) rfl),
      .desk (.dispatcher (.perform 0 .check) rfl),
      .desk (.dispatcher (.perform 0 (.poll sampleReply)) rfl),
      .desk (.dispatcher (.perform 0 .complete) rfl),
      .serve 1, .desk (.dispatcher (.waitEvent 1) rfl), .desk (.dispatcher (.waitErase 1) rfl),
      .desk (.dispatcher (.waitMove 1) rfl), .respond 1, .receive 1 1]

/-! ### What a client gets -/

/-- **What a client gets is the result of its own compile.**  Whatever the clients, the daemon and
anybody else do, in whatever order: a result that a client returns is what it reads in the answer
for the output that the one task queued for it has ended with, and if that can be sent, it is that.
-/
theorem collects_own (hz : z.Lawful) (hids : json.PrintsIds) (hreads : waitJson.ReadsRequests)
    (events : List CollectEvent)
    (hlen : ((collectingDesk json hasher submissions waitJson z).run {}
      events).desk.dispatcher.descs.length ≤ 2 ^ 64) :
    let s := (collectingDesk json hasher submissions waitJson z).run {} events
    ∀ call result, (s.collects call).phase = .returned result → result ≠ { exitCode := -1 } →
      ∃ output fuel, s.Delivered json hasher submissions call output ∧
        Client.readBody z waitJson.response fuel (answerBody waitJson.response output) =
          some (.ok result) ∧
        ∀ files, Sendable z waitJson.response files output → result = resultFor files output := by
  intro s call result hphase hne
  have h : s.Followed json hasher submissions waitJson z events :=
    CollectState.followed_run hids hreads hlen
  rcases h.outcome call (.ok result) (by rw [hphase]; rfl) with ⟨hminus, -⟩ | hread
  · exact absurd (Except.ok.inj hminus) hne
  rcases h.delivered hids hlen hread with ⟨output, fuel, hdelivered, hbody⟩ | ⟨hminus, -⟩
  · refine ⟨output, fuel, hdelivered, hbody, fun files hfiles => ?_⟩
    exact Except.ok.inj ((Client.returns_of_readBody hbody).unique (readBody_answerBody hz hfiles))
  · exact absurd (Except.ok.inj hminus) hne

/-- The second client gets the result of its own compile. -/
theorem collects_own_sample :
    let s := (collectingDesk sampleJson Daemon.emptyHasher (fun _ => sampleSubmission)
      sampleWaitJson .rawBlocks).run {} sampleCollecting
    (s.collects 1).phase = .returned { exitCode := 1, stdErr := Bytes.ofString "e" } ∧
      ∃ output, s.Delivered sampleJson Daemon.emptyHasher (fun _ => sampleSubmission) 1 output := by
  intro s
  have hphase : (s.collects 1).phase =
      .returned { exitCode := 1, stdErr := Bytes.ofString "e" } := by decide +kernel
  have hown := @collects_own sampleJson Daemon.emptyHasher (fun _ => sampleSubmission)
    sampleWaitJson .rawBlocks Compressor.rawBlocks_lawful sampleJson_printsIds
    sampleWaitJson_readsRequests sampleCollecting (by decide +kernel)
  obtain ⟨output, -, hdelivered, -⟩ := hown 1 _ hphase (by decide)
  exact ⟨hphase, output, hdelivered⟩

/-- **A client that goes on asking gets it.**  If nobody else asks for the task of a client, then
none of its requests misses the result: a request that has found the task sees the event exactly if
the task is `Done`.  And a client that does not give up ends with what its task has ended with,
unless the task was aborted or a minute has passed since its deadline. -/
theorem collects (hids : json.PrintsIds) (hreads : waitJson.ReadsRequests)
    (events : List CollectEvent)
    (hlen : ((collectingDesk json hasher submissions waitJson z).run {}
      events).desk.dispatcher.descs.length ≤ 2 ^ 64) :
    let s := (collectingDesk json hasher submissions waitJson z).run {} events
    ∀ call taskId, s.AsksFor call taskId → .desk (.waitFind taskId) ∉ events →
      (∀ k msToWait p, (s.collects call).exchange = .served k msToWait →
        s.desk.dispatcher.calls[k]? = some ⟨taskId, .found p⟩ →
        ∃ desc, s.desk.dispatcher.descs[p]? = some desc ∧ s.desk.Queued call p ∧
          (desc.completionEvent = true ↔ desc.state = .done)) ∧
      ∀ outcome, (s.collects call).phase.outcome = some outcome → .giveUp call ∉ events →
        (∃ output fuel, s.Delivered json hasher submissions call output ∧
          Client.readBody z waitJson.response fuel (answerBody waitJson.response output) =
            some outcome) ∨
        ∃ p, s.desk.Queued call p ∧ s.desk.dispatcher.Late p := by
  intro s call taskId hasks hstranger
  have h : s.Followed json hasher submissions waitJson z events :=
    CollectState.followed_run hids hreads hlen
  refine ⟨fun k msToWait p hserved hk => h.event_iff hids hlen hasks hstranger hserved hk,
    fun outcome hphase hgiveUp => ?_⟩
  rcases h.outcome call outcome hphase with ⟨-, hgave | hnone⟩ | hread
  · exact absurd hgave hgiveUp
  · rw [CollectState.AsksFor, hnone] at hasks
    cases hasks
  · rcases h.delivered hids hlen hread with hdelivered | ⟨-, taskId', hasks', hmem | hlate⟩
    · exact Or.inl hdelivered
    · have hsame : taskId' = taskId := by
        rw [CollectState.AsksFor] at hasks hasks'
        exact Option.some_inj.1 (SubmitPhase.returned.inj (hasks'.symm.trans hasks))
      exact absurd (hsame ▸ hmem) hstranger
    · exact Or.inr hlate

/-- The second client goes on asking, and its task has been dropped by no timer. -/
theorem collects_sample :
    let s := (collectingDesk sampleJson Daemon.emptyHasher (fun _ => sampleSubmission)
      sampleWaitJson .rawBlocks).run {} sampleCollecting
    s.AsksFor 1 1 ∧
      ∃ output fuel,
        s.Delivered sampleJson Daemon.emptyHasher (fun _ => sampleSubmission) 1 output ∧
          Client.readBody .rawBlocks sampleWaitJson.response fuel
            (answerBody sampleWaitJson.response output) =
              some (.ok { exitCode := 1, stdErr := Bytes.ofString "e" }) := by
  intro s
  -- no task has been aborted, and no time has passed
  obtain ⟨hreturned, hphase, haborted, hclock⟩ : (s.desk.calls 1).phase = .returned (some 1) ∧
      (s.collects 1).phase.outcome =
        some (.ok { exitCode := 1, stdErr := Bytes.ofString "e" }) ∧
      s.desk.dispatcher.descs.all (fun desc => !desc.aborted) = true ∧
      s.desk.dispatcher.clock = 0 := by decide +kernel
  have hasks : s.AsksFor 1 1 := hreturned
  have hstranger : .desk (.waitFind 1) ∉ sampleCollecting := fun hmem => by
    have hnone : sampleCollecting.all (fun event => !event.isStranger) = true := by decide +kernel
    cases List.all_eq_true.1 hnone _ hmem
  have hgiveUp : .giveUp 1 ∉ sampleCollecting := by simp [sampleCollecting, sampleEvents]
  have hall := @collects sampleJson Daemon.emptyHasher (fun _ => sampleSubmission) sampleWaitJson
    .rawBlocks sampleJson_printsIds sampleWaitJson_readsRequests sampleCollecting
    (by decide +kernel)
  refine ⟨hasks, ((hall 1 1 hasks hstranger).2 _ hphase hgiveUp).resolve_right ?_⟩
  generalize s.desk = desk at haborted hclock
  rintro ⟨p, -, desc, hdesc, hlate⟩
  rcases hlate with hflag | hover
  · have hkept := List.all_eq_true.1 haborted desc (List.mem_of_getElem? hdesc)
    rw [hflag] at hkept
    cases hkept
  · rw [hclock] at hover
    exact absurd hover (Nat.not_lt_zero _)

end Results

end Local
