/-
Which chat does a deletion go to?

A block row records the chat and the message of its document, and both together
identify it. The deletion calls get message ids only: each of the two clients
was built for the chat of the configuration (`BotApiClient.chat_id`, the peer of
the grammers client), and that is the chat it sends them to. The database may be
older than the configuration.

The clients are modelled down to the calls they make, the machine below them is
the database under any operations, with processes that start one after the other.
A deletion is recorded together with the candidate it is issued for (`Issued`),
which is what the statements are about.
-/
import Tg2s3.Collection

set_option autoImplicit false

namespace Tg2s3.Chats

open Tg2s3 Relational Machine
open Tg2s3.Collection (TelegramError)
open Tg2s3.Counts (put_first sent upload_record)

/-! ## The clients -/

/-- One deletion call of either API. -/
structure Call where
  chat_id : Int
  message_ids : List Int
  deriving DecidableEq, Repr

/-- What Telegram answers to the calls of one operation, in their order: how many
messages were deleted, or an error. -/
abbrev Answers := ℕ → Except TelegramError ℕ

/-- The calls that were made, and what the caller gets. -/
abbrev Outcome := List Call × Except TelegramError Unit

/-- `slice::chunks`. -/
def chunks {α : Type} (n : ℕ) (xs : List α) : List (List α) :=
  (List.range ((xs.length + n - 1) / n)).map fun i => (xs.drop (i * n)).take n

/-- `i32::try_from` succeeds. -/
def fits_i32 (message_id : Int) : Bool :=
  decide (-2147483648 ≤ message_id ∧ message_id ≤ 2147483647)

/-- The loop over the chunks; `convert` is what a client asks of a message id
before it makes the call. -/
def delete_chunks (chat_id : Int) (convert : Int → Bool) : Answers → List (List Int) → Outcome
  | _, [] => ([], .ok ())
  | answers, chunk :: rest =>
      if chunk.all convert then
        match answers 0 with
        | .error error => ([⟨chat_id, chunk⟩], .error error)
        | .ok _ =>
            let (calls, result) := delete_chunks chat_id convert (fun i => answers (i + 1)) rest
            (⟨chat_id, chunk⟩ :: calls, result)
      else ([], .error { text := "Telegram message ID is too large" })

namespace BotApiClient

def delete_message (chat_id message_id : Int) (answers : Answers) : Outcome :=
  ([⟨chat_id, [message_id]⟩], (answers 0).map fun _ => ())

def delete_messages (chat_id : Int) (message_ids : List Int) (answers : Answers) : Outcome :=
  delete_chunks chat_id (fun _ => true) answers (chunks 100 message_ids)

end BotApiClient

namespace GrammersClient

/-- `chat_id` is the dialog id of the peer; `resolve_storage_peer` refuses any
other than the configured one. -/
def delete_message (chat_id message_id : Int) (answers : Answers) : Outcome :=
  if fits_i32 message_id then
    ([⟨chat_id, [message_id]⟩],
      match answers 0 with
      | .error error => .error error
      | .ok deleted =>
          if deleted = 0 then .error { text := "Telegram message not found" } else .ok ())
  else ([], .error { text := "Telegram message ID is too large" })

def delete_messages (chat_id : Int) (message_ids : List Int) (answers : Answers) : Outcome :=
  delete_chunks chat_id fits_i32 answers (chunks 100 message_ids)

end GrammersClient

/-- Both clients of a process; the second one may be missing. -/
structure TelegramClient where
  chat_id : Int
  grammers : Bool
  deriving DecidableEq, Repr

namespace TelegramClient

variable (client : TelegramClient)

def uninitialized : Outcome := ([], .error { text := "grammers backend is not initialized" })

def delete_message (block : BlockRef) (answers : Answers) : Outcome :=
  match block.backend with
  | .bot_api => BotApiClient.delete_message client.chat_id block.message_id answers
  | .grammers =>
      if client.grammers then GrammersClient.delete_message client.chat_id block.message_id answers
      else uninitialized

def delete_messages (backend : TelegramBackend) (message_ids : List Int) (answers : Answers) :
    Outcome :=
  match backend with
  | .bot_api => BotApiClient.delete_messages client.chat_id message_ids answers
  | .grammers =>
      if client.grammers then GrammersClient.delete_messages client.chat_id message_ids answers
      else uninitialized

end TelegramClient

/-! ## Processes over one database -/

/-- One message whose deletion was asked for, and the candidate it was for. -/
structure Issued where
  candidate : GarbageRecord
  chat_id : Int
  message_id : Int
  deriving DecidableEq, Repr

/-- The messages of some calls, in their order. -/
def targets (calls : List Call) : List (Int × Int) :=
  calls.flatMap fun call => call.message_ids.map fun message_id => (call.chat_id, message_id)

/-- The n-th message is the one of the n-th candidate. -/
def issued_for (group : List GarbageRecord) (calls : List Call) : List Issued :=
  List.zipWith (fun candidate target => ⟨candidate, target.1, target.2⟩) group (targets calls)

structure Server where
  client : TelegramClient
  db : Database := {}
  candidates : List GarbageRecord := []
  issued : List Issued := []
  deriving DecidableEq, Repr

/-- The calls are made on behalf of these candidates. -/
def Server.issue (s : Server) (group : List GarbageRecord) (outcome : Outcome) : Server :=
  { s with issued := s.issued ++ issued_for group outcome.1 }

inductive Action
  /-- a new process, with the configuration it finds -/
  | start (client : TelegramClient)
  | write (op : Op)
  | gc_candidates (timestamp : Int) (limit : ℕ)
  | gc_candidate (block_id timestamp : Int)
  | delete_message (candidate : GarbageRecord) (answers : Answers)
  | delete_messages (backend : TelegramBackend) (group : List GarbageRecord) (answers : Answers)

/-- What a process stages, it stages in its own chat. -/
def stages_in (chat_id : Int) : Op → Bool
  | .add_staged_block _ block => decide (block.chat_id = chat_id)
  | _ => true

def step (s : Server) : Action → Option Server
  | .start client => some { s with client := client, candidates := [] }
  | .write op =>
      if stages_in s.client.chat_id op = true then some { s with db := op.apply s.db } else none
  | .gc_candidates timestamp limit =>
      some { s with candidates := s.candidates ++ gc_candidates s.db timestamp limit }
  | .gc_candidate block_id timestamp =>
      some { s with candidates := s.candidates ++ (gc_candidate s.db block_id timestamp).toList }
  | .delete_message candidate answers =>
      if candidate ∈ s.candidates then
        some (s.issue [candidate] (s.client.delete_message candidate.as_block_ref answers))
      else none
  | .delete_messages backend group answers =>
      if ∀ candidate ∈ group, candidate ∈ s.candidates ∧ candidate.backend = backend then
        some (s.issue group
          (s.client.delete_messages backend (group.map (·.message_id)) answers))
      else none

def Server.init (client : TelegramClient) : Server := { client := client }

/-- The deletion goes to the chat and the message the row recorded. -/
def Issued.Addressed (d : Issued) : Prop :=
  d.chat_id = d.candidate.chat_id ∧ d.message_id = d.candidate.message_id

instance (d : Issued) : Decidable d.Addressed := inferInstanceAs (Decidable (_ ∧ _))

/-- The candidates that are handed to the client were recorded in its chat. -/
def AtHome (s : Server) : Action → Prop
  | .delete_message candidate _ => candidate.chat_id = s.client.chat_id
  | .delete_messages _ group _ => ∀ candidate ∈ group, candidate.chat_id = s.client.chat_id
  | _ => True

instance (s : Server) (a : Action) : Decidable (AtHome s a) := by
  unfold AtHome
  split <;> infer_instance

/-! ## The calls of an operation

Whatever Telegram answers, the calls of an operation name the messages it was
given, from the first one on and in their order, all in the chat of the client. -/

theorem take_flatten_chunks {α : Type} (n : ℕ) (xs : List α) (k : ℕ) :
    ((List.range k).map fun i => (xs.drop (i * n)).take n).flatten = xs.take (k * n) := by
  induction k with
  | zero => simp
  | succ k ih =>
      rw [List.range_succ, List.map_append, List.flatten_append, ih, Nat.succ_mul]
      rw [List.take_add]
      simp

/-- Chunking loses nothing. -/
theorem flatten_chunks {α : Type} {n : ℕ} (hn : 0 < n) (xs : List α) :
    (chunks n xs).flatten = xs := by
  unfold chunks
  rw [take_flatten_chunks]
  apply List.take_of_length_le
  have hdiv := Nat.div_add_mod (xs.length + n - 1) n
  have hmod := Nat.mod_lt (xs.length + n - 1) hn
  rw [Nat.mul_comm] at hdiv
  omega

theorem targets_delete_chunks (chat_id : Int) (convert : Int → Bool) (answers : Answers)
    (chunks : List (List Int)) :
    targets (delete_chunks chat_id convert answers chunks).1
      <+: chunks.flatten.map fun message_id => (chat_id, message_id) := by
  induction chunks generalizing answers with
  | nil => exact List.prefix_rfl
  | cons chunk rest ih =>
      unfold delete_chunks
      split
      · rw [List.flatten_cons, List.map_append]
        split
        · -- the call was made, and its error ends the loop
          simp [targets]
        · change _ ++ targets _ <+: _
          exact (List.prefix_append_right_inj _).mpr (ih _)
      · exact List.nil_prefix

/-- **The calls of the single deletion.** -/
theorem targets_delete_message (client : TelegramClient) (block : BlockRef) (answers : Answers) :
    targets (client.delete_message block answers).1 <+: [(client.chat_id, block.message_id)] := by
  unfold TelegramClient.delete_message
  split
  · exact List.prefix_rfl
  · split
    · unfold GrammersClient.delete_message
      split
      · exact List.prefix_rfl
      · exact List.nil_prefix
    · exact List.nil_prefix

/-- **The calls of the batch.** -/
theorem targets_delete_messages (client : TelegramClient) (backend : TelegramBackend)
    (message_ids : List Int) (answers : Answers) :
    targets (client.delete_messages backend message_ids answers).1
      <+: message_ids.map fun message_id => (client.chat_id, message_id) := by
  have hchunks := flatten_chunks (n := 100) (by omega) message_ids
  unfold TelegramClient.delete_messages
  split
  · unfold BotApiClient.delete_messages
    have h := targets_delete_chunks client.chat_id (fun _ => true) answers (chunks 100 message_ids)
    rwa [hchunks] at h
  · split
    · unfold GrammersClient.delete_messages
      have h := targets_delete_chunks client.chat_id fits_i32 answers (chunks 100 message_ids)
      rwa [hchunks] at h
    · exact List.nil_prefix

/-- So each deletion is for its candidate's message, in the chat of the client. -/
theorem issued_for_prefix {group : List GarbageRecord} {calls : List Call} {chat_id : Int}
    (h : targets calls <+: group.map fun candidate => (chat_id, candidate.message_id)) :
    ∀ d ∈ issued_for group calls, d.candidate ∈ group ∧ d.chat_id = chat_id
      ∧ d.message_id = d.candidate.message_id := by
  unfold issued_for
  generalize targets calls = ts at h
  induction group generalizing ts with
  | nil =>
      intro d hd
      cases hd
  | cons candidate group ih =>
      cases ts with
      | nil =>
          intro d hd
          cases hd
      | cons t ts =>
          rw [List.map_cons, List.cons_prefix_cons] at h
          obtain ⟨rfl, hrest⟩ := h
          intro d hd
          rcases List.mem_cons.mp hd with rfl | hd
          · exact ⟨List.mem_cons_self, rfl, rfl⟩
          · obtain ⟨hin, hchat, hmessage⟩ := ih ts hrest d hd
            exact ⟨List.mem_cons_of_mem _ hin, hchat, hmessage⟩

/-! ## Runs -/

/-- What a step issues goes to the chat of the process, each deletion for the
message of its candidate. -/
theorem issued_step {s s' : Server} {a : Action} (hstep : step s a = some s') :
    ∀ d ∈ s'.issued, d ∈ s.issued ∨ (d.chat_id = s.client.chat_id
      ∧ d.message_id = d.candidate.message_id
      ∧ (AtHome s a → d.candidate.chat_id = s.client.chat_id)) := by
  cases a with
  | delete_message candidate answers =>
      simp only [step] at hstep
      split_ifs at hstep with hin
      obtain rfl := Option.some.inj hstep
      intro d hd
      rcases List.mem_append.mp hd with hd | hd
      · exact Or.inl hd
      · have hcalls : targets (s.client.delete_message candidate.as_block_ref answers).1
            <+: [candidate].map fun candidate => (s.client.chat_id, candidate.message_id) :=
          targets_delete_message s.client candidate.as_block_ref answers
        obtain ⟨hcandidate, hchat, hmessage⟩ := issued_for_prefix hcalls d hd
        refine Or.inr ⟨hchat, hmessage, fun hhome => ?_⟩
        rw [List.mem_singleton.mp hcandidate]
        exact hhome
  | delete_messages backend group answers =>
      simp only [step] at hstep
      split_ifs at hstep with hin
      obtain rfl := Option.some.inj hstep
      intro d hd
      rcases List.mem_append.mp hd with hd | hd
      · exact Or.inl hd
      · have hcalls := targets_delete_messages s.client backend (group.map (·.message_id)) answers
        rw [List.map_map] at hcalls
        obtain ⟨hcandidate, hchat, hmessage⟩ := issued_for_prefix hcalls d hd
        exact Or.inr ⟨hchat, hmessage, fun hhome => hhome d.candidate hcandidate⟩
  | write op =>
      simp only [step] at hstep
      split_ifs at hstep
      obtain rfl := Option.some.inj hstep
      exact fun d hd => Or.inl hd
  | _ =>
      obtain rfl := Option.some.inj hstep
      exact fun d hd => Or.inl hd

/-- **Deletions address the recorded chat** in every run in which a process is
only asked to delete messages of its own chat. -/
theorem deletions_addressed (client : TelegramClient) (as : List Action) (s : Server)
    (hrun : run step (Server.init client) as = some s)
    (hhome : Meets step AtHome (Server.init client) as) : ∀ d ∈ s.issued, d.Addressed := by
  refine run_inv (C := AtHome) (I := fun s => ∀ d ∈ s.issued, d.Addressed) ?_ ?_ hhome hrun
  · intro s a s' hall hat hstep d hd
    rcases issued_step hstep d hd with hd | ⟨hchat, hmessage, hown⟩
    · exact hall d hd
    · exact ⟨hchat.trans (hown hat).symm, hmessage⟩
  · intro d hd
    cases hd

/-! ### One chat

While every process is configured with the same chat, the condition holds by
itself: whatever is in the database was recorded in that chat. -/

structure OneChat (chat_id : Int) (s : Server) : Prop where
  wellFormed : WellFormed s.db
  client : s.client.chat_id = chat_id
  rows : ∀ row ∈ s.db.telegram_blocks, row.chat_id = chat_id
  candidates : ∀ candidate ∈ s.candidates, candidate.chat_id = chat_id

/-- The process that starts is configured with this chat. -/
def starts_in (chat_id : Int) : Action → Bool
  | .start client => decide (client.chat_id = chat_id)
  | _ => true

theorem chat_id_of_frozen {r r' : TelegramBlockRow} (h : r.frozen = r'.frozen) :
    r.chat_id = r'.chat_id := by
  have hchat : r.frozen.chat_id = r'.frozen.chat_id := by rw [h]
  exact hchat

/-- A loaded candidate has the chat of its row. -/
theorem chat_id_of_select {db : Database} {timestamp chat_id : Int} {q : GcQueueRow}
    {candidate : GarbageRecord} (h : gc_select db timestamp q = some candidate)
    (hrows : ∀ row ∈ db.telegram_blocks, row.chat_id = chat_id) : candidate.chat_id = chat_id := by
  unfold gc_select at h
  split at h
  · cases h
  · rename_i b hb
    split_ifs at h
    obtain rfl := Option.some.inj h
    exact hrows b (lookup_mem hb).1

theorem rows_chat {chat_id : Int} {s : Server} (h : OneChat chat_id s) {op : Op}
    (hstages : stages_in s.client.chat_id op = true) :
    ∀ row ∈ (op.apply s.db).telegram_blocks, row.chat_id = chat_id := by
  by_cases hrecord : ∃ now block, op = .add_staged_block now block
  · obtain ⟨now, block, rfl⟩ := hrecord
    have hblock : block.chat_id = chat_id := by
      rw [← h.client]
      exact of_decide_eq_true hstages
    refine transaction_cases (P := fun d => ∀ row ∈ d.telegram_blocks, row.chat_id = chat_id)
      h.rows (fun db' id hok => ?_)
    obtain ⟨hr, -⟩ := insert_block_ok hok
    obtain ⟨rfl, -⟩ := Prod.mk.inj hr
    intro row hrow
    rcases List.mem_append.mp hrow with hrow | hrow
    · exact h.rows row hrow
    · rw [List.mem_singleton.mp hrow]
      exact hblock
  · have hfree := leavesFree_apply h.wellFormed op
      (fun now block heq => hrecord ⟨now, block, heq⟩)
    intro row' hrow'
    obtain ⟨row, hrow, heq⟩ := hfree.rows row' hrow'
    rw [← chat_id_of_frozen heq]
    exact h.rows row hrow

theorem oneChat_step {chat_id : Int} {s s' : Server} {a : Action} (h : OneChat chat_id s)
    (ha : starts_in chat_id a = true) (hstep : step s a = some s') : OneChat chat_id s' := by
  cases a with
  | start client =>
      obtain rfl := Option.some.inj hstep
      exact { h with client := of_decide_eq_true ha, candidates := by simp }
  | write op =>
      simp only [step] at hstep
      split_ifs at hstep with hstages
      obtain rfl := Option.some.inj hstep
      exact { h with
        wellFormed := wellFormed_apply s.db op h.wellFormed, rows := rows_chat h hstages }
  | gc_candidates timestamp limit =>
      obtain rfl := Option.some.inj hstep
      refine { h with candidates := fun candidate hin => ?_ }
      rcases List.mem_append.mp hin with hin | hin
      · exact h.candidates candidate hin
      · obtain ⟨q, -, hselect⟩ := List.mem_filterMap.mp (List.mem_of_mem_take hin)
        exact chat_id_of_select hselect h.rows
  | gc_candidate block_id timestamp =>
      obtain rfl := Option.some.inj hstep
      refine { h with candidates := fun candidate hin => ?_ }
      rcases List.mem_append.mp hin with hin | hin
      · exact h.candidates candidate hin
      · obtain ⟨q, -, hselect⟩ := Option.bind_eq_some_iff.mp (Option.mem_toList.mp hin)
        exact chat_id_of_select hselect h.rows
  | delete_message candidate answers =>
      simp only [step] at hstep
      split_ifs at hstep
      obtain rfl := Option.some.inj hstep
      exact { h with }
  | delete_messages backend group answers =>
      simp only [step] at hstep
      split_ifs at hstep
      obtain rfl := Option.some.inj hstep
      exact { h with }

/-- In one chat a step is always at home. -/
theorem at_home {chat_id : Int} {s s' : Server} {a : Action} (h : OneChat chat_id s)
    (hstep : step s a = some s') : AtHome s a := by
  cases a with
  | delete_message candidate answers =>
      simp only [step] at hstep
      split_ifs at hstep with hin
      exact (h.candidates candidate hin).trans h.client.symm
  | delete_messages backend group answers =>
      simp only [step] at hstep
      split_ifs at hstep with hin
      exact fun candidate hc => (h.candidates candidate (hin candidate hc).1).trans h.client.symm
  | _ => trivial

/-- **One chat is enough.** -/
theorem addressed_in_one_chat (client : TelegramClient) (as : List Action) (s : Server)
    (hrun : run step (Server.init client) as = some s)
    (hchat : ∀ a ∈ as, starts_in client.chat_id a = true) : ∀ d ∈ s.issued, d.Addressed := by
  have hinit : OneChat client.chat_id (Server.init client) :=
    { wellFormed := wellFormed_empty, client := rfl, rows := by simp [Server.init]
      candidates := by simp [Server.init] }
  have hall : ∀ d ∈ (Server.init client).issued, d.Addressed := fun d hd => by cases hd
  generalize Server.init client = s₀ at hinit hall hrun
  induction as generalizing s₀ with
  | nil =>
      obtain rfl : s₀ = s := by simpa using hrun
      exact hall
  | cons a as ih =>
      obtain ⟨s₁, hstep, hrest⟩ := run_cons.mp hrun
      have hnext : OneChat client.chat_id s₁ :=
        oneChat_step hinit (hchat a List.mem_cons_self) hstep
      refine ih (fun b hb => hchat b (List.mem_cons_of_mem a hb)) s₁ hnext ?_ hrest
      intro d hd
      rcases issued_step hstep d hd with hd | ⟨hto, hmessage, hown⟩
      · exact hall d hd
      · exact ⟨hto.trans (hown (at_home hinit hstep)).symm, hmessage⟩

/-! ## Two chats

An object is put and deleted; the server is configured with another chat, and an
object is put there. Message ids begin again in each chat. -/

def former : TelegramClient := { chat_id := -100, grammers := false }
def current : TelegramClient := { chat_id := -200, grammers := false }

def there (block : BlockRef) : BlockRef := { block with chat_id := -200 }

/-- The block of the deleted object, as the collector loads it. -/
def leftover : GarbageRecord :=
  { block_id := 1, chat_id := -100, message_id := 11, backend := .bot_api, document_id := none
    file_id := "file", file_unique_id := "unique", message_date := 0, attempts := 0
    next_attempt := 1, last_error := none }

def moved : List Action :=
  (put_first ++ [Op.delete_object 1 "b" "k" {}]).map Action.write ++
    [ .start current, .write (.create_upload (upload_record "put-2")),
      .write (.add_staged_block 2 (there (sent 0 11 5))),
      .write (.replace_part 2 "put-2" 0 5 "e2" [there (sent 2 11 5)]),
      .write (.commit_upload 2 "put-2" 5 "e2"
        [{ upload_id := "put-2", part_number := 0, size := 5, etag := "e2"
           blocks := [there (sent 2 11 5)] }] {}) ]

def collected : List Action :=
  [.gc_candidates 5 10, .delete_message leftover (fun _ => .ok 1)]

/-- A process that is configured with the former chat again collects it. -/
theorem deletions_addressed_former :
    ∃ s, run step (Server.init former) (moved ++ [.start former] ++ collected) = some s
      ∧ s.issued = [⟨leftover, -100, 11⟩] ∧ ∀ d ∈ s.issued, d.Addressed := by
  have hrun : (run step (Server.init former) (moved ++ [.start former] ++ collected)).map (·.issued)
      = some [⟨leftover, -100, 11⟩] := by
    decide
  obtain ⟨s, hs, hissued⟩ := Option.map_eq_some_iff.mp hrun
  exact ⟨s, hs, hissued, deletions_addressed former _ s hs (by decide)⟩

/-- **The message of a live block is deleted.** The process that runs now collects
the leftover: message 11 of its own chat is the one of the new object. -/
theorem live_message_deleted :
    ∃ s, run step (Server.init former) (moved ++ collected) = some s
      ∧ ∃ d ∈ s.issued, ¬ d.Addressed
        ∧ ∃ row ∈ s.db.telegram_blocks, row.message = (d.chat_id, d.message_id)
          ∧ 0 < s.db.refs row.id := by
  have hrun : (run step (Server.init former) (moved ++ collected)).map (fun s =>
      decide (∃ d ∈ s.issued, ¬ d.Addressed
        ∧ ∃ row ∈ s.db.telegram_blocks, row.message = (d.chat_id, d.message_id)
          ∧ 0 < s.db.refs row.id)) = some true := by
    decide
  obtain ⟨s, hs, hd⟩ := Option.map_eq_some_iff.mp hrun
  exact ⟨s, hs, of_decide_eq_true hd⟩

end Tg2s3.Chats
