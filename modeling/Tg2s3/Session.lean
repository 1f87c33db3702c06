/-
`src/telegram/session.rs`: the MTProto session in a SQLite file.

The home DC and the DC options live twice, in the tables and in a cache that answers
the reads; the update state lives in the tables only, in one row without a key and in
one row for each channel. A call writes the tables first, in a transaction where it
takes more than one statement, and the cache afterwards.

SQLite may refuse any statement (a full disk, a busy file), so a call comes with what
it does to the statements of the call, one after the other; a transaction that is not
committed leaves the file as it was. The defaults of a new session come from another
crate and are a parameter. Peers are kept in a table of their own that nothing here
reads or writes.

The abstract state says what was written last (`State`). A socket address is kept as
its text, and the text of an IPv6 address has no place for the flow information
(`Lib/Inet`): an option that has some is read back without it once the file has been
opened again. The columns are those of another program's session files, so this is
the format and no slip.
-/
import Tg2s3.Lib.Table
import Tg2s3.Lib.Run
import Tg2s3.Lib.Inet

set_option autoImplicit false

namespace Tg2s3.Session

open Inet Relational Machine

/-! ## Values -/

/-- The bytes of an authorization key. -/
abbrev AuthKey := { key : List UInt8 // key.length = 256 }

structure DcOption where
  id : Int
  ipv4 : SocketAddrV4
  ipv6 : SocketAddrV6
  auth_key : Option AuthKey
  deriving DecidableEq

structure ChannelState where
  id : Int
  pts : Int
  deriving DecidableEq, Repr

structure UpdatesState where
  pts : Int := 0
  qts : Int := 0
  date : Int := 0
  seq : Int := 0
  channels : List ChannelState := []
  deriving DecidableEq, Repr

inductive UpdateState
  | All (state : UpdatesState)
  | Primary (pts date seq : Int)
  | Secondary (qts : Int)
  | Channel (id pts : Int)
  deriving DecidableEq, Repr

/-! ## The file -/

structure DcOptionRow where
  dc_id : Int
  ipv4 : String
  ipv6 : String
  auth_key : Option (List UInt8)
  deriving DecidableEq, Repr

structure UpdateRow where
  pts : Int
  qts : Int
  date : Int
  seq : Int
  deriving DecidableEq, Repr

/-- The tables of a session file. -/
structure SessionFile where
  dc_home : List Int := []
  dc_option : List DcOptionRow := []
  update_state : List UpdateRow := []
  channel_state : List ChannelState := []
  deriving DecidableEq, Repr

inductive SqlError
  | constraint
  | refused
  deriving DecidableEq, Repr

/-- What a statement works on: the tables as the statements before it have left them, and
which of the statements to come SQLite refuses. -/
structure Connection where
  file : SessionFile
  refuses : List Bool

abbrev Sql := StateT Connection (Except SqlError)

/-- `execute`: `none` is a violated constraint, the number is `rows_affected`. -/
def execute (statement : SessionFile → Option (SessionFile × ℕ)) : Sql ℕ := fun connection =>
  if connection.refuses.head? = some true then .error .refused
  else
    match statement connection.file with
    | some (file, rows) => .ok (rows, { file := file, refuses := connection.refuses.tail })
    | none => .error .constraint

/-- `begin`, the statements and `commit`. -/
def committed (body : Sql Unit) : Sql Unit := do
  let _ ← execute fun file => some (file, 0)
  body
  let _ ← execute fun file => some (file, 0)

/-- Whatever fails, the file stays as it was. -/
def transaction (body : Sql Unit) (refuses : List Bool) (file : SessionFile) :
    Except SqlError SessionFile :=
  (committed body { file := file, refuses := refuses }).map (·.2.file)

/-! ## The session -/

/-- What `open` uses of `SessionData::default()`. -/
structure SessionData where
  home_dc : Int
  dc_options : List (Int × DcOption)

structure Cache where
  home_dc : Int
  dc_options : List (Int × DcOption)
  deriving DecidableEq

structure SqlxSession where
  database : SessionFile
  cache : Cache
  deriving DecidableEq

inductive SqlxSessionError
  | AddrParse
  | InvalidAuthKeyLength (actual : ℕ)
  deriving DecidableEq, Repr

/-- An option of the table. -/
def load_dc_option (row : DcOptionRow) : Except SqlxSessionError DcOption := do
  let auth_key ← match row.auth_key with
    | none => pure none
    | some value =>
        if h : value.length = 256 then pure (some ⟨value, h⟩)
        else .error (.InvalidAuthKeyLength value.length)
  let ipv4 ← ((SocketAddrV4.parse row.ipv4).elim (.error .AddrParse) .ok)
  let ipv6 ← ((SocketAddrV6.parse row.ipv6).elim (.error .AddrParse) .ok)
  pure { id := row.dc_id, ipv4 := ipv4, ipv6 := ipv6, auth_key := auth_key }

/-- `SqlxSession::open` for a file with the tables. -/
def SqlxSession.open (defaults : SessionData) (database : SessionFile) :
    Except SqlxSessionError SqlxSession := do
  let dc_options ← database.dc_option.foldlM (fun dc_options row => do
    let dc_option ← load_dc_option row
    pure (insertOrReplace Prod.fst (dc_option.id, dc_option) dc_options)) defaults.dc_options
  pure { database := database
         cache := { home_dc := database.dc_home.head?.getD defaults.home_dc
                    dc_options := dc_options } }

namespace SqlxSession

def home_dc_id (session : SqlxSession) : Int := session.cache.home_dc

def dc_option (session : SqlxSession) (dc_id : Int) : Option DcOption :=
  (lookup Prod.fst dc_id session.cache.dc_options).map Prod.snd

def updates_state (session : SqlxSession) : UpdatesState :=
  let state : UpdatesState :=
    match session.database.update_state.head? with
    | some row => { pts := row.pts, qts := row.qts, date := row.date, seq := row.seq }
    | none => {}
  { state with channels := session.database.channel_state }

/-- The cache is written only behind the tables. -/
def finish (session : SqlxSession) (written : Except SqlError SessionFile) (cache : Cache) :
    Except SqlError Unit × SqlxSession :=
  match written with
  | .error error => (.error error, session)
  | .ok database => (.ok (), { database := database, cache := cache })

def set_home_dc_id (refuses : List Bool) (session : SqlxSession) (dc_id : Int) :
    Except SqlError Unit × SqlxSession :=
  let written := transaction (do
    let _ ← execute fun file => some ({ file with dc_home := [] }, file.dc_home.length)
    let _ ← execute fun file =>
      (insertUnique id dc_id file.dc_home).map fun rows => ({ file with dc_home := rows }, 1))
    refuses session.database
  finish session written { session.cache with home_dc := dc_id }

/-- The row of an option. -/
def row_of (dc_option : DcOption) : DcOptionRow where
  dc_id := dc_option.id
  ipv4 := dc_option.ipv4.to_string
  ipv6 := dc_option.ipv6.to_string
  auth_key := dc_option.auth_key.map (·.val)

def set_dc_option (refuses : List Bool) (session : SqlxSession) (dc_option : DcOption) :
    Except SqlError Unit × SqlxSession :=
  let written := execute (fun file =>
    some ({ file with
      dc_option := insertOrReplace (·.dc_id) (row_of dc_option) file.dc_option }, 1))
    { file := session.database, refuses := refuses }
  finish session (written.map (·.2.file)) { session.cache with
    dc_options := insertOrReplace Prod.fst (dc_option.id, dc_option) session.cache.dc_options }

/-- The statements of `set_update_state`. -/
def write_update : UpdateState → Sql Unit
  | .All state => do
      let _ ← execute fun file => some ({ file with update_state := [] }, file.update_state.length)
      let _ ← execute fun file => some ({ file with
        update_state := file.update_state ++ [⟨state.pts, state.qts, state.date, state.seq⟩] }, 1)
      let _ ← execute fun file =>
        some ({ file with channel_state := [] }, file.channel_state.length)
      state.channels.forM fun channel => do
        let _ ← execute fun file =>
          (insertUnique (·.id) channel file.channel_state).map fun rows =>
            ({ file with channel_state := rows }, 1)
  | .Primary pts date seq => do
      let rows_affected ← execute fun file => some ({ file with
        update_state := file.update_state.map fun row =>
          { row with pts := pts, date := date, seq := seq } }, file.update_state.length)
      if rows_affected = 0 then
        let _ ← execute fun file => some ({ file with
          update_state := file.update_state ++ [⟨pts, 0, date, seq⟩] }, 1)
  | .Secondary qts => do
      let rows_affected ← execute fun file => some ({ file with
        update_state := file.update_state.map fun row => { row with qts := qts } },
        file.update_state.length)
      if rows_affected = 0 then
        let _ ← execute fun file => some ({ file with
          update_state := file.update_state ++ [⟨0, qts, 0, 0⟩] }, 1)
  | .Channel id pts => do
      let _ ← execute fun file => some ({ file with
        channel_state := insertOrReplace (·.id) ⟨id, pts⟩ file.channel_state }, 1)

def set_update_state (refuses : List Bool) (session : SqlxSession) (update : UpdateState) :
    Except SqlError Unit × SqlxSession :=
  finish session (transaction (write_update update) refuses session.database) session.cache

end SqlxSession

/-! ## Runs -/

inductive Call
  | set_home_dc_id (dc_id : Int)
  | set_dc_option (dc_option : DcOption)
  | set_update_state (update : UpdateState)
  deriving DecidableEq

def perform (refuses : List Bool) (session : SqlxSession) :
    Call → Except SqlError Unit × SqlxSession
  | .set_home_dc_id dc_id => session.set_home_dc_id refuses dc_id
  | .set_dc_option dc_option => session.set_dc_option refuses dc_option
  | .set_update_state update => session.set_update_state refuses update

/-- A call with its answer, or the end of the process and a new `open`. -/
inductive Event
  | call (refuses : List Bool) (call : Call) (answer : Except SqlError Unit)
  | reopen

def step (defaults : SessionData) (session : SqlxSession) : Event → Option SqlxSession
  | .call refuses call answer =>
      if (perform refuses session call).1 = answer then some (perform refuses session call).2
      else none
  | .reopen => (SqlxSession.open defaults session.database).toOption

/-! ## What the store is for -/

/-- What was written last: the home DC, the option of a DC, and the update state with the
channels as a map. -/
structure State where
  home_dc : Option Int := none
  dc_options : Int → Option DcOption := fun _ => none
  pts : Int := 0
  qts : Int := 0
  date : Int := 0
  seq : Int := 0
  channels : Int → Option Int := fun _ => none

/-- An option without the part that its text does not keep. -/
def without_flowinfo (dc_option : DcOption) : DcOption :=
  { dc_option with ipv6 := { dc_option.ipv6 with flowinfo := 0 } }

namespace State

variable (state : State)

/-- `All` replaces everything, `Primary` keeps `qts`, `Secondary` changes only `qts` and
`Channel` only its channel. -/
def updated : UpdateState → State
  | .All update =>
      { state with
        pts := update.pts, qts := update.qts, date := update.date, seq := update.seq
        channels := fun id => (lookup ChannelState.id id update.channels).map (·.pts) }
  | .Primary pts date seq => { state with pts := pts, date := date, seq := seq }
  | .Secondary qts => { state with qts := qts }
  | .Channel id pts => { state with channels := Function.update state.channels id (some pts) }

def called : Call → State
  | .set_home_dc_id dc_id => { state with home_dc := some dc_id }
  | .set_dc_option dc_option =>
      { state with
        dc_options := Function.update state.dc_options dc_option.id (some dc_option) }
  | .set_update_state update => state.updated update

/-- A call that fails changes nothing. -/
def after : Event → State
  | .call _ call (.ok ()) => state.called call
  | .call _ _ (.error _) => state
  | .reopen => { state with dc_options := fun id => (state.dc_options id).map without_flowinfo }

end State

/-- What the calls that succeeded have written, from a new file on. -/
def written (events : List Event) : State := events.foldl State.after {}

/-! ## What the statements of a call do -/

/-- A row of statements that ends well has done `f`; where nothing is refused it does `f`, and
fails where `f` does. -/
structure Does {α : Type} (body : Sql α) (f : SessionFile → Option (SessionFile × α)) : Prop where
  done : ∀ connection result, body connection = .ok result →
    f connection.file = some (result.2.file, result.1)
  clear : ∀ file, body { file := file, refuses := [] } = (f file).elim (.error .constraint)
    fun written => .ok (written.2, { file := written.1, refuses := [] })

/-- A single statement does what it says, or fails and leaves the file. -/
theorem does_execute (statement : SessionFile → Option (SessionFile × ℕ)) :
    Does (execute statement) statement where
  done connection result h := by
    unfold execute at h
    split_ifs at h
    cases hs : statement connection.file with
    | none =>
        rw [hs] at h
        cases h
    | some written =>
        rw [hs] at h
        rw [← Except.ok.inj h]
  clear file := by
    unfold execute
    rw [if_neg (show ¬ List.head? ([] : List Bool) = some true by decide)]
    cases statement file with
    | none => rfl
    | some written => rfl

/-- To give a value does nothing. -/
theorem does_pure {α : Type} (a : α) : Does (pure a : Sql α) fun file => some (file, a) where
  done connection result h := by
    rw [← Except.ok.inj h]
  clear _ := rfl

namespace Does

variable {α β : Type} {body : Sql α} {f : SessionFile → Option (SessionFile × α)}

/-- Two programs one after the other: the second one goes on from the file of the first, and if
it fails the whole does. -/
theorem bind (h : Does body f) {next : α → Sql β}
    {g : α → SessionFile → Option (SessionFile × β)} (hnext : ∀ a, Does (next a) (g a)) :
    Does (body >>= next) fun file => (f file).bind fun written => g written.2 written.1 where
  done connection result hok := by
    have hbind : (body connection).bind (fun r => next r.1 r.2) = .ok result := hok
    cases hbody : body connection with
    | error error =>
        rw [hbody] at hbind
        cases hbind
    | ok r =>
        rw [hbody] at hbind
        have hdone := (hnext r.1).done r.2 result hbind
        rw [h.done connection r hbody]
        exact hdone
  clear file := by
    have hbind : (body >>= next) { file := file, refuses := [] }
        = (body { file := file, refuses := [] }).bind (fun r => next r.1 r.2) := rfl
    rw [hbind, h.clear file]
    cases f file with
    | none => rfl
    | some written => exact (hnext written.2).clear written.1

/-- The meaning may be written differently. -/
theorem congr (h : Does body f) {g : SessionFile → Option (SessionFile × α)}
    (heq : ∀ file, f file = g file) : Does body g := by
  rw [← funext heq]
  exact h

end Does

/-- To commit is to keep what was done. -/
theorem Does.committed {body : Sql Unit} {f : SessionFile → Option (SessionFile × Unit)}
    (h : Does body f) : Does (committed body) f := by
  refine ((does_execute fun file => some (file, 0)).bind fun _ =>
    h.bind fun _ => (does_execute fun file => some (file, 0)).bind fun _ => does_pure ()).congr ?_
  intro file
  rw [Option.bind_some]
  cases f file <;> rfl

/-- A transaction that is committed has done what its statements do. -/
theorem transaction_ok {body : Sql Unit} {f : SessionFile → Option (SessionFile × Unit)}
    (h : Does body f) {refuses : List Bool} {file file' : SessionFile}
    (hok : transaction body refuses file = .ok file') : f file = some (file', ()) := by
  unfold transaction at hok
  cases hresult : committed body { file := file, refuses := refuses } with
  | error error =>
      rw [hresult] at hok
      cases hok
  | ok result =>
      rw [hresult] at hok
      rw [← Except.ok.inj hok]
      exact h.committed.done _ result hresult

/-- **A transaction is all or nothing**: from a connection with no other transaction it leaves
what its program says, or the file as it was. -/
theorem transaction_clear {body : Sql Unit} {f : SessionFile → Option (SessionFile × Unit)}
    (h : Does body f) (file : SessionFile) :
    transaction body [] file
      = (f file).elim (.error .constraint) fun written => .ok written.1 := by
  unfold transaction
  rw [h.committed.clear file]
  cases f file <;> rfl

/-! ## What a call does -/

/-- The tables after an update of the state, if no channel comes twice. -/
def update_file (file : SessionFile) : UpdateState → Option SessionFile
  | .All state =>
      if (state.channels.map (·.id)).Nodup then
        some { file with
          update_state := [⟨state.pts, state.qts, state.date, state.seq⟩]
          channel_state := state.channels }
      else none
  | .Primary pts date seq =>
      some { file with update_state :=
        if file.update_state = [] then [⟨pts, 0, date, seq⟩]
        else file.update_state.map fun row => { row with pts := pts, date := date, seq := seq } }
  | .Secondary qts =>
      some { file with update_state :=
        if file.update_state = [] then [⟨0, qts, 0, 0⟩]
        else file.update_state.map fun row => { row with qts := qts } }
  | .Channel id pts =>
      some { file with channel_state := insertOrReplace (·.id) ⟨id, pts⟩ file.channel_state }

open SqlxSession

/-- The states of the channels are written one by one, which fails if one comes twice. By
induction on the list. -/
theorem does_channels (channels : List ChannelState) :
    Does (channels.forM fun channel => do
        let _ ← execute fun file =>
          (insertUnique (·.id) channel file.channel_state).map fun rows =>
            ({ file with channel_state := rows }, 1))
      fun file => (channels.foldlM (fun rows row => insertUnique (·.id) row rows)
        file.channel_state).map fun rows => ({ file with channel_state := rows }, ()) := by
  induction channels with
  | nil => exact does_pure ()
  | cons channel channels ih =>
      refine (((does_execute _).bind fun _ => does_pure ()).bind fun _ => ih).congr fun file => ?_
      rw [List.foldlM_cons]
      cases insertUnique (·.id) channel file.channel_state <;> rfl

/-- An update of the row, which is put there if there is none. -/
theorem does_update_or_insert (f : UpdateRow → UpdateRow) (row : UpdateRow) :
    Does (do
        let rows_affected ← execute fun file => some ({ file with
          update_state := file.update_state.map f }, file.update_state.length)
        if rows_affected = 0 then
          let _ ← execute fun file => some ({ file with
            update_state := file.update_state ++ [row] }, 1))
      fun file => some ({ file with update_state :=
        if file.update_state = [] then [row] else file.update_state.map f }, ()) := by
  refine ((does_execute _).bind
    (g := fun rows file => some (if rows = 0 then { file with
      update_state := file.update_state ++ [row] } else file, ())) fun rows => ?_).congr ?_
  · by_cases hrows : rows = 0
    · rw [if_pos hrows]
      refine ((does_execute _).bind fun _ => does_pure ()).congr fun file => ?_
      rw [if_pos hrows]
      rfl
    · rw [if_neg hrows]
      refine (does_pure ()).congr fun file => ?_
      rw [if_neg hrows]
  · intro file
    rw [Option.bind_some]
    by_cases hempty : file.update_state = []
    · rw [if_pos hempty, if_pos (by rw [hempty]; rfl), hempty]
      rfl
    · rw [if_neg hempty, if_neg fun h => hempty (List.length_eq_zero_iff.mp h)]

/-- An update is written as a whole. -/
theorem does_write_update (update : UpdateState) :
    Does (write_update update)
      fun file => (update_file file update).map fun file => (file, ()) := by
  cases update with
  | All state =>
      refine ((does_execute _).bind fun _ => (does_execute _).bind fun _ =>
        (does_execute _).bind fun _ => does_channels state.channels).congr fun file => ?_
      simp only [Option.bind_some]
      rw [foldlM_insertUnique ChannelState.id state.channels [] List.nodup_nil, List.nil_append]
      unfold update_file
      dsimp only
      rw [List.nil_append]
      by_cases hnodup : (state.channels.map ChannelState.id).Nodup
      · rw [if_pos hnodup, if_pos hnodup]
        rfl
      · rw [if_neg hnodup, if_neg hnodup]
        rfl
  | Primary pts date seq => exact does_update_or_insert _ _
  | Secondary qts => exact does_update_or_insert _ _
  | Channel id pts => exact (does_execute _).bind fun _ => does_pure ()

/-- The row of the home data centre is replaced. -/
theorem does_set_home_dc_id (dc_id : Int) :
    Does (do
        let _ ← execute fun file => some ({ file with dc_home := [] }, file.dc_home.length)
        let _ ← execute fun file =>
          (insertUnique id dc_id file.dc_home).map fun rows => ({ file with dc_home := rows }, 1))
      fun file => some ({ file with dc_home := [dc_id] }, ()) :=
  (does_execute _).bind fun _ => (does_execute _).bind fun _ => does_pure ()

/-- The file that a call leaves when it succeeds. -/
def file_after (file : SessionFile) : Call → Option SessionFile
  | .set_home_dc_id dc_id => some { file with dc_home := [dc_id] }
  | .set_dc_option dc_option =>
      some { file with dc_option := insertOrReplace (·.dc_id) (row_of dc_option) file.dc_option }
  | .set_update_state update => update_file file update

/-- The cache that it leaves. -/
def cache_after (cache : Cache) : Call → Cache
  | .set_home_dc_id dc_id => { cache with home_dc := dc_id }
  | .set_dc_option dc_option =>
      { cache with
        dc_options := insertOrReplace Prod.fst (dc_option.id, dc_option) cache.dc_options }
  | .set_update_state _ => cache

/-- A call writes the file, or not, and behind it the cache. -/
theorem perform_eq (refuses : List Bool) (session : SqlxSession) (call : Call) :
    ∃ written, perform refuses session call
        = finish session written (cache_after session.cache call)
      ∧ (∀ file, written = .ok file → file_after session.database call = some file)
      ∧ (refuses = [] →
        written = (file_after session.database call).elim (.error .constraint) .ok) := by
  cases call with
  | set_home_dc_id dc_id =>
      refine ⟨_, rfl, fun file hok => ?_, ?_⟩
      · have hfile := transaction_ok (does_set_home_dc_id dc_id) hok
        exact congrArg (Option.map Prod.fst) hfile
      · rintro rfl
        exact transaction_clear (does_set_home_dc_id dc_id) session.database
  | set_dc_option dc_option =>
      refine ⟨_, rfl, fun file hok => ?_, ?_⟩
      · generalize hwritten : execute _ _ = written at hok
        cases written with
        | error error => cases hok
        | ok result =>
            have hfile := (does_execute _).done _ result hwritten
            rw [← Except.ok.inj hok]
            exact congrArg (Option.map Prod.fst) hfile
      · rintro rfl
        rw [(does_execute _).clear]
        rfl
  | set_update_state update =>
      refine ⟨_, rfl, fun file hok => ?_, ?_⟩
      · have hfile := transaction_ok (does_write_update update) hok
        obtain ⟨file', hupdate, heq⟩ := Option.map_eq_some_iff.mp hfile
        obtain rfl : file' = file := congrArg Prod.fst heq
        exact hupdate
      · rintro rfl
        rw [transaction_clear (does_write_update update)]
        have hafter : file_after session.database (.set_update_state update)
            = update_file session.database update := rfl
        rw [hafter]
        cases update_file session.database update <;> rfl

/-- **A call that succeeds** has written the file and the cache. -/
theorem perform_ok {refuses : List Bool} {session : SqlxSession} {call : Call}
    (h : (perform refuses session call).1 = .ok ()) :
    ∃ file, file_after session.database call = some file
      ∧ (perform refuses session call).2
        = { database := file, cache := cache_after session.cache call } := by
  obtain ⟨written, heq, hok, -⟩ := perform_eq refuses session call
  rw [heq] at h ⊢
  cases written with
  | error error => cases h
  | ok file => exact ⟨file, hok file rfl, rfl⟩

/-- **A call that fails** has written nothing. -/
theorem perform_error {refuses : List Bool} {session : SqlxSession} {call : Call} {e : SqlError}
    (h : (perform refuses session call).1 = .error e) :
    (perform refuses session call).2 = session := by
  obtain ⟨written, heq, -⟩ := perform_eq refuses session call
  rw [heq] at h ⊢
  cases written with
  | error error => rfl
  | ok file => cases h

/-- Where SQLite refuses nothing, a call fails only if a constraint is in its way. -/
theorem perform_clear (session : SqlxSession) (call : Call) :
    (perform [] session call).1 = .ok () ↔ (file_after session.database call).isSome = true := by
  obtain ⟨written, heq, -, hclear⟩ := perform_eq [] session call
  rw [heq, hclear rfl]
  cases file_after session.database call with
  | none => exact ⟨fun h => (by cases h), fun h => (by cases h)⟩
  | some file => exact ⟨fun _ => rfl, fun _ => rfl⟩

/-- The one call that a constraint stops. -/
def repeats_channel : Call → Bool
  | .set_update_state (.All state) => ¬ (state.channels.map (·.id)).Nodup
  | _ => false

/-- A call can be written unless it names one channel twice. -/
theorem file_after_isSome (file : SessionFile) (call : Call) :
    (file_after file call).isSome = true ↔ repeats_channel call = false := by
  unfold file_after update_file repeats_channel
  split
  · exact ⟨fun _ => rfl, fun _ => rfl⟩
  · exact ⟨fun _ => rfl, fun _ => rfl⟩
  · split
    · split_ifs with hnodup
      · simp [hnodup]
      · simp [hnodup]
    · exact ⟨fun _ => rfl, fun _ => rfl⟩
    · exact ⟨fun _ => rfl, fun _ => rfl⟩
    · exact ⟨fun _ => rfl, fun _ => rfl⟩

/-- A row is under the id of its data centre. -/
@[simp] theorem row_of_dc_id (dc_option : DcOption) : (row_of dc_option).dc_id = dc_option.id := rfl

/-- Leaving out the flow information leaves the id. -/
@[simp] theorem without_flowinfo_id (dc_option : DcOption) :
    (without_flowinfo dc_option).id = dc_option.id := rfl

/-! ## The store and its abstract state -/

/-- The option that a new session knows. -/
def default_option (defaults : SessionData) (id : Int) : Option DcOption :=
  (lookup Prod.fst id defaults.dc_options).map Prod.snd

/-- The update state in the tables: no row as long as nothing was written. -/
def UpdateRows (rows : List UpdateRow) (state : State) : Prop :=
  rows = [] ∧ (⟨state.pts, state.qts, state.date, state.seq⟩ : UpdateRow) = ⟨0, 0, 0, 0⟩
    ∨ rows = [⟨state.pts, state.qts, state.date, state.seq⟩]

/-- Tables and cache hold what was written last. -/
structure Refines (defaults : SessionData) (session : SqlxSession) (state : State) : Prop where
  home_rows : session.database.dc_home = state.home_dc.toList
  home_cache : session.cache.home_dc = state.home_dc.getD defaults.home_dc
  option_keys : (session.database.dc_option.map (·.dc_id)).Nodup
  option_rows : ∀ id, lookup (·.dc_id) id session.database.dc_option
    = (state.dc_options id).map row_of
  option_ids : ∀ id dc_option, state.dc_options id = some dc_option → dc_option.id = id
  option_cache : ∀ id, session.dc_option id
    = (state.dc_options id).or (default_option defaults id)
  update_rows : UpdateRows session.database.update_state state
  channel_keys : (session.database.channel_state.map (·.id)).Nodup
  channel_rows : ∀ id, (lookup (·.id) id session.database.channel_state).map (·.pts)
    = state.channels id

section Calls

variable {defaults : SessionData} {session : SqlxSession} {state : State}

/-- Setting the home data centre is the same in the file, the cache and the abstract state. -/
theorem Refines.set_home_dc_id (h : Refines defaults session state) (dc_id : Int) :
    Refines defaults
      { database := { session.database with dc_home := [dc_id] }
        cache := { session.cache with home_dc := dc_id } }
      (state.called (.set_home_dc_id dc_id)) :=
  { h with
    home_rows := rfl
    home_cache := rfl }

/-- A data centre is stored without its flow information, which the text of an address does not
hold; the cache keeps it until the session is opened again. -/
theorem Refines.set_dc_option (h : Refines defaults session state) (dc_option : DcOption) :
    Refines defaults
      { database := { session.database with
          dc_option := insertOrReplace (·.dc_id) (row_of dc_option) session.database.dc_option }
        cache := { session.cache with
          dc_options := insertOrReplace Prod.fst (dc_option.id, dc_option)
            session.cache.dc_options } }
      (state.called (.set_dc_option dc_option)) :=
  { h with
    option_keys := nodup_insertOrReplace h.option_keys
    option_rows := by
      intro id
      unfold State.called
      dsimp only
      rw [lookup_insertOrReplace, row_of_dc_id, Function.update_apply]
      by_cases hid : id = dc_option.id
      · rw [if_pos hid, if_pos hid]
        rfl
      · rw [if_neg hid, if_neg hid]
        exact h.option_rows id
    option_ids := by
      intro id found hfound
      unfold State.called at hfound
      dsimp only at hfound
      rw [Function.update_apply] at hfound
      by_cases hid : id = dc_option.id
      · rw [if_pos hid] at hfound
        rw [← Option.some.inj hfound, hid]
      · rw [if_neg hid] at hfound
        exact h.option_ids id found hfound
    option_cache := by
      intro id
      unfold State.called SqlxSession.dc_option
      dsimp only
      rw [lookup_insertOrReplace, Function.update_apply]
      by_cases hid : id = dc_option.id
      · rw [if_pos hid, if_pos hid]
        rfl
      · rw [if_neg hid, if_neg hid]
        exact h.option_cache id }

/-- An update of the row, or the first row, says what the update changes of the state. -/
theorem UpdateRows.update {rows : List UpdateRow} {state state' : State}
    (h : UpdateRows rows state) (f : UpdateRow → UpdateRow)
    (hf : f ⟨state.pts, state.qts, state.date, state.seq⟩
      = ⟨state'.pts, state'.qts, state'.date, state'.seq⟩) :
    UpdateRows (if rows = [] then [f ⟨0, 0, 0, 0⟩] else rows.map f) state' := by
  rcases h with ⟨hempty, hzero⟩ | hrow
  · rw [if_pos hempty, ← hzero, hf]
    exact Or.inr rfl
  · rw [hrow, if_neg (List.cons_ne_nil _ _), List.map_singleton, hf]
    exact Or.inr rfl

/-- An update that the file has taken is the one that the abstract state has. -/
theorem Refines.set_update_state (h : Refines defaults session state) {update : UpdateState}
    {file : SessionFile} (hfile : update_file session.database update = some file) :
    Refines defaults { database := file, cache := session.cache }
      (state.called (.set_update_state update)) := by
  cases update with
  | All new =>
      unfold update_file at hfile
      dsimp only at hfile
      split_ifs at hfile with hnodup
      obtain rfl := Option.some.inj hfile
      exact { h with
        update_rows := Or.inr rfl
        channel_keys := hnodup
        channel_rows := fun _ => rfl }
  | Primary pts date seq =>
      obtain rfl := Option.some.inj hfile
      exact { h with
        update_rows := h.update_rows.update
          (fun row => { row with pts := pts, date := date, seq := seq }) rfl }
  | Secondary qts =>
      obtain rfl := Option.some.inj hfile
      exact { h with
        update_rows := h.update_rows.update (fun row => { row with qts := qts }) rfl }
  | Channel id pts =>
      obtain rfl := Option.some.inj hfile
      exact { h with
        channel_keys := nodup_insertOrReplace h.channel_keys
        channel_rows := by
          intro id'
          unfold State.called State.updated
          dsimp only
          rw [lookup_insertOrReplace, Function.update_apply]
          by_cases hid : id' = id
          · rw [if_pos hid, if_pos hid]
            rfl
          · rw [if_neg hid, if_neg hid]
            exact h.channel_rows id' }

/-- **A call that succeeds** keeps the store and its abstract state together. -/
theorem Refines.called (h : Refines defaults session state) {call : Call} {file : SessionFile}
    (hfile : file_after session.database call = some file) :
    Refines defaults { database := file, cache := cache_after session.cache call }
      (state.called call) := by
  cases call with
  | set_home_dc_id dc_id =>
      obtain rfl := Option.some.inj hfile
      exact h.set_home_dc_id dc_id
  | set_dc_option dc_option =>
      obtain rfl := Option.some.inj hfile
      exact h.set_dc_option dc_option
  | set_update_state update => exact h.set_update_state hfile

end Calls

/-! ## Opening the file again -/

/-- An option comes back from its row without the flow information. -/
theorem load_row_of (dc_option : DcOption) :
    load_dc_option (row_of dc_option) = .ok (without_flowinfo dc_option) := by
  obtain ⟨id, ipv4, ipv6, auth_key⟩ := dc_option
  unfold load_dc_option row_of
  dsimp only
  rw [parse_to_string_v4, parse_to_string_v6]
  cases auth_key with
  | none => rfl
  | some key =>
      dsimp only [Option.map_some]
      rw [dif_pos key.property]
      rfl

/-- The options of the file lie over the ones that were there. -/
theorem load_rows (rows : List DcOptionRow) (hkeys : (rows.map (·.dc_id)).Nodup)
    (hrows : ∀ row ∈ rows, ∃ dc_option, row = row_of dc_option)
    (dc_options : List (Int × DcOption)) :
    ∃ loaded, rows.foldlM (fun dc_options row => do
        let dc_option ← load_dc_option row
        pure (insertOrReplace Prod.fst (dc_option.id, dc_option) dc_options)) dc_options
          = (.ok loaded : Except SqlxSessionError _)
      ∧ (∀ dc_option, row_of dc_option ∈ rows →
        lookup Prod.fst dc_option.id loaded = some (dc_option.id, without_flowinfo dc_option))
      ∧ ∀ id, id ∉ rows.map (·.dc_id) →
        lookup Prod.fst id loaded = lookup Prod.fst id dc_options := by
  induction rows generalizing dc_options with
  | nil => exact ⟨dc_options, rfl, fun _ h => (by cases h), fun _ _ => rfl⟩
  | cons row rows ih =>
      obtain ⟨first, rfl⟩ := hrows row List.mem_cons_self
      obtain ⟨hfresh, hkeys'⟩ := List.nodup_cons.mp hkeys
      obtain ⟨loaded, hloaded, hwritten, hothers⟩ := ih hkeys'
        (fun row hrow => hrows row (List.mem_cons_of_mem _ hrow))
        (insertOrReplace Prod.fst ((without_flowinfo first).id, without_flowinfo first) dc_options)
      refine ⟨loaded, ?_, ?_, ?_⟩
      · rw [List.foldlM_cons, load_row_of]
        exact hloaded
      · intro dc_option hmem
        rcases List.mem_cons.mp hmem with heq | hmem
        · have hid : dc_option.id = first.id := congrArg DcOptionRow.dc_id heq
          have hload := load_row_of dc_option
          rw [heq, load_row_of] at hload
          rw [hid, hothers first.id hfresh, lookup_insertOrReplace]
          dsimp only
          rw [without_flowinfo_id, if_pos rfl, Except.ok.inj hload]
        · exact hwritten dc_option hmem
      · intro id hid
        rw [List.map_cons, List.mem_cons, not_or] at hid
        rw [hothers id hid.2, lookup_insertOrReplace]
        exact if_neg hid.1

/-- **A reopened store** is the store, and its options are without flow information. -/
theorem Refines.reopened {defaults : SessionData} {session : SqlxSession} {state : State}
    (h : Refines defaults session state) :
    ∃ session', SqlxSession.open defaults session.database = .ok session'
      ∧ session'.database = session.database
      ∧ Refines defaults session' (state.after .reopen) := by
  -- each row was written by the store, so that it parses again
  have hrows : ∀ row ∈ session.database.dc_option, ∃ dc_option, row = row_of dc_option := by
    intro row hrow
    have hfound := lookup_eq_some h.option_keys hrow rfl
    rw [h.option_rows] at hfound
    obtain ⟨dc_option, -, heq⟩ := Option.map_eq_some_iff.mp hfound
    exact ⟨dc_option, heq.symm⟩
  obtain ⟨loaded, hloaded, hwritten, hothers⟩ :=
    load_rows session.database.dc_option h.option_keys hrows defaults.dc_options
  -- the cache is filled from the rows over the defaults
  have hopened : SqlxSession.open defaults session.database = .ok
      { database := session.database
        cache := { home_dc := session.database.dc_home.head?.getD defaults.home_dc
                   dc_options := loaded } } := by
    unfold SqlxSession.open
    rw [hloaded]
    rfl
  refine ⟨_, hopened, rfl, ?_⟩
  exact { h with
    home_cache := by
      dsimp only [State.after]
      rw [h.home_rows]
      cases state.home_dc with
      | none => rfl
      | some dc_id => rfl
    option_rows := by
      intro id
      dsimp only [State.after]
      rw [h.option_rows, Option.map_map]
      rfl
    option_ids := by
      intro id dc_option hfound
      obtain ⟨written, hstate, rfl⟩ := Option.map_eq_some_iff.mp hfound
      exact h.option_ids id written hstate
    option_cache := by
      intro id
      unfold SqlxSession.dc_option default_option
      dsimp only [State.after]
      cases hstate : state.dc_options id with
      | none =>
          have hnone := h.option_rows id
          rw [hstate] at hnone
          rw [hothers id (lookup_eq_none.mp hnone)]
          rfl
      | some dc_option =>
          have hfound := h.option_rows id
          rw [hstate] at hfound
          obtain ⟨hmem, hkey⟩ := lookup_mem hfound
          have hload := hwritten dc_option hmem
          rw [h.option_ids id dc_option hstate] at hload
          rw [hload]
          rfl }

/-! ## Whole runs -/

/-- An empty file stands for the defaults. -/
theorem refines_new (defaults : SessionData) :
    Refines defaults
      { database := {}
        cache := { home_dc := defaults.home_dc, dc_options := defaults.dc_options } } {} where
  home_rows := rfl
  home_cache := rfl
  option_keys := List.nodup_nil
  option_rows _ := rfl
  option_ids _ _ h := by cases h
  option_cache _ := rfl
  update_rows := Or.inl ⟨rfl, rfl⟩
  channel_keys := List.nodup_nil
  channel_rows _ := rfl

/-- One event keeps the store and its abstract state together. -/
theorem refines_step {defaults : SessionData} {session session' : SqlxSession} {state : State}
    {event : Event} (h : Refines defaults session state)
    (hstep : step defaults session event = some session') :
    Refines defaults session' (state.after event) := by
  cases event with
  | call refuses call answer =>
      unfold step at hstep
      dsimp only at hstep
      split_ifs at hstep with hanswer
      obtain rfl := Option.some.inj hstep
      subst hanswer
      cases hresult : (perform refuses session call).1 with
      | error e =>
          rw [perform_error hresult]
          exact h
      | ok _ =>
          obtain ⟨file, hfile, heq⟩ := perform_ok hresult
          rw [heq]
          exact h.called hfile
  | reopen =>
      obtain ⟨opened, hopened, -, hrefines⟩ := h.reopened
      unfold step at hstep
      dsimp only at hstep
      rw [hopened] at hstep
      obtain rfl := Option.some.inj hstep
      exact hrefines

/-- **Every run refines** the abstract session, reopenings and refused statements among its
events. By induction on the run, with the rule for one event. -/
theorem refines_run {defaults : SessionData} {session session' : SqlxSession} {state : State}
    {events : List Event} (h : Refines defaults session state)
    (hrun : run (step defaults) session events = some session') :
    Refines defaults session' (events.foldl State.after state) := by
  induction events generalizing session state with
  | nil =>
      obtain rfl := Option.some.inj hrun
      exact h
  | cons event events ih =>
      obtain ⟨next, hstep, hrest⟩ := run_cons.mp hrun
      exact ih (refines_step h hstep) hrest

/-- The answer of `updates_state` is the update state of the tables, whichever row there is. -/
theorem Refines.updates_state {defaults : SessionData} {session : SqlxSession} {state : State}
    (h : Refines defaults session state) :
    ∃ channels, session.updates_state = ⟨state.pts, state.qts, state.date, state.seq, channels⟩
      ∧ (channels.map (·.id)).Nodup
      ∧ ∀ id, (lookup (·.id) id channels).map (·.pts) = state.channels id := by
  refine ⟨session.database.channel_state, ?_, h.channel_keys, h.channel_rows⟩
  unfold SqlxSession.updates_state
  rcases h.update_rows with ⟨hempty, hzero⟩ | hrow
  · obtain ⟨hpts, hqts, hdate, hseq⟩ := UpdateRow.mk.inj hzero
    rw [hempty, hpts, hqts, hdate, hseq]
    rfl
  · rw [hrow]
    rfl

/-- **The store behaves like what was written last.** The home DC and the options are the last
ones written, or the defaults, in the cache and in the tables; the update state is the fold of
the updates. The file can always be opened again, and gives back the same values, the options
without flow information. A call that fails changes nothing; an `All` that names a channel
twice always fails, and nothing else does where SQLite refuses no statement. -/
theorem session_refines {defaults : SessionData} {session₀ session : SqlxSession}
    {events : List Event} (hnew : SqlxSession.open defaults {} = .ok session₀)
    (hrun : run (step defaults) session₀ events = some session) :
    (session.home_dc_id = (written events).home_dc.getD defaults.home_dc
      ∧ session.database.dc_home = (written events).home_dc.toList)
    ∧ (∀ id, session.dc_option id
        = ((written events).dc_options id).or (default_option defaults id)
      ∧ lookup (·.dc_id) id session.database.dc_option
        = ((written events).dc_options id).map row_of)
    ∧ (∃ channels, session.updates_state = ⟨(written events).pts, (written events).qts,
          (written events).date, (written events).seq, channels⟩
        ∧ (channels.map (·.id)).Nodup
        ∧ ∀ id, (lookup (·.id) id channels).map (·.pts) = (written events).channels id)
    ∧ (∃ reopened, SqlxSession.open defaults session.database = .ok reopened
        ∧ reopened.home_dc_id = session.home_dc_id
        ∧ (∀ id, reopened.dc_option id
          = (((written events).dc_options id).map without_flowinfo).or
            (default_option defaults id))
        ∧ reopened.updates_state = session.updates_state)
    ∧ (∀ refuses call e, (perform refuses session call).1 = .error e →
        (perform refuses session call).2 = session)
    ∧ (∀ refuses call, repeats_channel call = true →
        (perform refuses session call).1 ≠ .ok ())
    ∧ ∀ call, repeats_channel call = false → (perform [] session call).1 = .ok () := by
  obtain rfl := Except.ok.inj hnew
  have h : Refines defaults session (written events) := refines_run (refines_new defaults) hrun
  obtain ⟨reopened, hopened, hdatabase, hreopened⟩ := h.reopened
  refine ⟨⟨h.home_cache, h.home_rows⟩, fun id => ⟨h.option_cache id, h.option_rows id⟩,
    h.updates_state, ⟨reopened, hopened, ?_, hreopened.option_cache, ?_⟩,
    fun refuses call e => perform_error, fun refuses call hrepeats hok => ?_, fun call hfine => ?_⟩
  · exact hreopened.home_cache.trans h.home_cache.symm
  · unfold SqlxSession.updates_state
    rw [hdatabase]
  · obtain ⟨file, hfile, -⟩ := perform_ok hok
    have hsome := Option.isSome_of_mem hfile
    rw [file_after_isSome, hrepeats] at hsome
    cases hsome
  · rw [perform_clear, file_after_isSome]
    exact hfine

/-- A partial update before the first `All`, an `All` that fails, and a new start. -/
def restart : List Event :=
  [.call [] (.set_update_state (.Primary 5 6 7)) (.ok ()),
    .call [] (.set_update_state (.All { pts := 1, channels := [⟨3, 1⟩, ⟨3, 2⟩] }))
      (.error .constraint),
    .call [] (.set_home_dc_id 4) (.ok ()), .reopen,
    .call [] (.set_update_state (.Secondary 8)) (.ok ())]

/-- A data centre is stored, the session is opened again, and what is read is what was stored. -/
theorem session_refines_restart :
    ∃ session, run (step ⟨2, []⟩) { database := {}, cache := { home_dc := 2, dc_options := [] } }
        restart = some session
      ∧ session.home_dc_id = 4
      ∧ ∃ channels, session.updates_state = ⟨5, 8, 6, 7, channels⟩ := by
  obtain ⟨session, hrun⟩ : ∃ session, run (step ⟨2, []⟩)
      { database := {}, cache := { home_dc := 2, dc_options := [] } } restart = some session :=
    ⟨_, rfl⟩
  have h := session_refines (show SqlxSession.open ⟨2, []⟩ {} = .ok _ from rfl) hrun
  obtain ⟨channels, hupdates, -⟩ := h.2.2.1
  exact ⟨session, hrun, h.1.1, channels, hupdates⟩

/-- An option with flow information. -/
def labelled : DcOption where
  id := 2
  ipv4 := { ip := ⟨[149, 154, 167, 51], rfl⟩, port := 443 }
  ipv6 := { ip := ⟨[0x2001, 0x67c, 0x4e8, 0xf002, 0, 0, 0, 0xa], rfl⟩, port := 443
            flowinfo := 1, scope_id := 0 }
  auth_key := none

/-- It is not what a new start reads. -/
theorem flowinfo_is_lost :
    ¬ ∀ (defaults : SessionData) (session₀ session : SqlxSession) (dc_option : DcOption),
      SqlxSession.open defaults {} = .ok session₀ →
      run (step defaults) session₀ [.call [] (.set_dc_option dc_option) (.ok ()), .reopen]
        = some session →
      session.dc_option dc_option.id = some dc_option := by
  intro h
  have hread := h { home_dc := 2, dc_options := [] } _ _ labelled rfl rfl
  exact absurd hread (by decide)

end Tg2s3.Session
