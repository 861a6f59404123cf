import JsonRpc.Wire

/-! # One message per reset of the connection's arena

`jsonrpc_conn_feed` handles each line inside a scope on the connection's arena, and
`jsonrpc_conn_send_result` and `jsonrpc_conn_send_error` send inside one. Called with no arena
bound, a scope's begin binds the arena and its end calls `arena_clear` on it. Each such scope
parses at most one line and sends at most one reply before the reset: what parson took from the
arena for one message is given back before the next message is parsed, and no message gets two
replies.

Over the trace this is a monitor, run once for parses and once for `send_raw`: a watched event
marks the arena pending, `arena_clear` on it clears the mark, and a watched event that finds the
mark set fails the monitor. What the calls inside a scope can add is said once (`EpochMarks`),
and holds for both monitors. Over a table of connections the trace splits into the segments its
calls add, and the monitor for a connection's arena runs over the segment of each call on it.
-/

namespace JsonRpc
set_option autoImplicit false

/-- Every event but a parse. -/
def Event.parseFree : Event → Bool
  | .parse _ => false
  | _ => true

theorem Event.parseFree_of_inner {e : Event} (h : e.inner = true) : e.parseFree = true := by
  cases e <;> simp_all [Event.inner, Event.parseFree]

/-- The arena an event resets. -/
def Event.cleared : Event → Option Nat
  | .arenaClear b => some b
  | _ => none

theorem Event.eq_of_cleared {e : Event} {b : Nat} (h : e.cleared = some b) :
    e = .arenaClear b := by
  cases e <;> simp_all [Event.cleared]

/-- The monitor for the arena `a`: whether a watched event is pending, `none` once it failed. -/
def clearScan (quiet : Event → Bool) (a : Nat) : Bool → List Event → Option Bool
  | pending, [] => some pending
  | pending, e :: es =>
    if e.cleared = some a then clearScan quiet a false es
    else if quiet e then clearScan quiet a pending es
    else if pending then none else clearScan quiet a true es

example : clearScan Event.parseFree 0 false [.parse [], .arenaClear 1, .parse []] = none := rfl
example : clearScan Event.silent 0 false [.sendRaw [], .arenaClear 0, .sendRaw []] = some true :=
  rfl

section
variable (quiet : Event → Bool) (a : Nat)

theorem clearScan_append (δ₁ δ₂ : List Event) :
    ∀ s, clearScan quiet a s (δ₁ ++ δ₂) = (clearScan quiet a s δ₁).bind (clearScan quiet a · δ₂) := by
  induction δ₁ with
  | nil => intro s; rfl
  | cons e δ₁ ih =>
    intro s
    simp only [List.cons_append, clearScan]
    split_ifs <;> simp [ih]

theorem clearScan_quiet {δ : List Event} (h : ∀ e ∈ δ, quiet e = true) :
    ∀ s, ∃ s', clearScan quiet a s δ = some s' ∧ (s = false → s' = false) := by
  induction δ with
  | nil => intro s; exact ⟨s, rfl, id⟩
  | cons e δ ih =>
    intro s
    have hRest := ih fun e' he' => h e' (List.mem_cons_of_mem _ he')
    simp only [clearScan]
    split_ifs with hClear hQuiet
    · obtain ⟨s', hs', hKeep⟩ := hRest false
      exact ⟨s', hs', fun _ => hKeep rfl⟩
    · exact hRest s
    all_goals exact absurd (h e (List.mem_cons_self _ _)) hQuiet

theorem clearScan_segment :
    ∀ {δ : List Event}, δ.countP (fun e => !quiet e) ≤ 1 → ∃ s', clearScan quiet a false δ = some s'
  | [], _ => ⟨false, rfl⟩
  | e :: δ, hCount => by
    rw [List.countP_cons] at hCount
    simp only [clearScan, Bool.false_eq_true, if_false]
    split_ifs with hClear hQuiet
    · exact clearScan_segment (le_trans (Nat.le_add_right _ _) hCount)
    · rw [if_neg (by simpa using hQuiet)] at hCount
      exact clearScan_segment (by omega)
    · rw [if_pos (by simpa using hQuiet)] at hCount
      have hNone : δ.countP (fun e => !quiet e) = 0 := by omega
      obtain ⟨s', hs', -⟩ := clearScan_quiet quiet a
        (fun e' he' => by simpa using List.countP_eq_zero.mp hNone e' he') true
      exact ⟨s', hs'⟩

theorem clearScan_reset {δ : List Event} (h : δ.countP (fun e => !quiet e) ≤ 1) :
    clearScan quiet a false (δ ++ [.arenaClear a]) = some false := by
  obtain ⟨s, hs⟩ := clearScan_segment quiet a h
  rw [clearScan_append, hs]
  simp [clearScan, Event.cleared]

theorem clearScan_pending :
    ∀ {v : List Event}, clearScan quiet a true v = some false →
      ∃ v₁ v₂, v = v₁ ++ .arenaClear a :: v₂ ∧ ∀ e ∈ v₁, quiet e = true
  | [], h => by cases h
  | e :: v, h => by
    simp only [clearScan] at h
    split_ifs at h with hClear hQuiet
    · exact ⟨[], v, by rw [Event.eq_of_cleared hClear]; rfl, by simp⟩
    · obtain ⟨v₁, v₂, rfl, hv₁⟩ := clearScan_pending h
      refine ⟨e :: v₁, v₂, rfl, fun e' he' => ?_⟩
      rcases List.mem_cons.mp he' with rfl | he'
      exacts [hQuiet, hv₁ e' he']

/-- A run that leaves the monitor clear resets `a` after every watched event, before the next. -/
theorem clearScan_sound (hClear : ∀ b, quiet (.arenaClear b) = true) {δ : List Event} {s : Bool}
    (h : clearScan quiet a s δ = some false) :
    ∀ u e v, δ = u ++ e :: v → quiet e = false →
      ∃ v₁ v₂, v = v₁ ++ .arenaClear a :: v₂ ∧ ∀ e' ∈ v₁, quiet e' = true := by
  rintro u e v rfl he
  rw [clearScan_append] at h
  obtain ⟨s₁, -, h⟩ := Option.bind_eq_some.mp h
  have hNot : e.cleared ≠ some a := fun hc => by
    rw [Event.eq_of_cleared hc, hClear] at he
    cases he
  cases s₁
  · simp only [clearScan, hNot, he, if_false, Bool.false_eq_true] at h
    exact clearScan_pending quiet a h
  · simp [clearScan, hNot, he] at h

end

section
variable {σ : Type}

/-- From `w` to `w'` the trace grew by events that take the monitor from `s` to `s'`. -/
def World.Scan (quiet : Event → Bool) (a : Nat) (s s' : Bool) (w w' : World σ) : Prop :=
  ∃ δ, w'.trace = w.trace ++ δ ∧ clearScan quiet a s δ = some s'

/-- From `w` to `w'` the trace grew by at most `n` events the monitor watches. -/
def World.Marks (quiet : Event → Bool) (n : Nat) (w w' : World σ) : Prop :=
  ∃ δ, w'.trace = w.trace ++ δ ∧ δ.countP (fun e => !quiet e) ≤ n

namespace World

variable {quiet : Event → Bool} {a : Nat} {w₁ w₂ w₃ : World σ}

theorem Scan.refl (quiet : Event → Bool) (a : Nat) (s : Bool) (w : World σ) :
    World.Scan quiet a s s w w :=
  ⟨[], by simp, rfl⟩

theorem Scan.trans {s₁ s₂ s₃ : Bool} (h₁ : World.Scan quiet a s₁ s₂ w₁ w₂)
    (h₂ : World.Scan quiet a s₂ s₃ w₂ w₃) : World.Scan quiet a s₁ s₃ w₁ w₃ := by
  obtain ⟨δ₁, hδ₁, h₁⟩ := h₁
  obtain ⟨δ₂, hδ₂, h₂⟩ := h₂
  exact ⟨δ₁ ++ δ₂, by rw [hδ₂, hδ₁, List.append_assoc],
    by rw [clearScan_append, h₁]; exact h₂⟩

theorem Marks.trans {m n : Nat} (h₁ : World.Marks quiet m w₁ w₂) (h₂ : World.Marks quiet n w₂ w₃) :
    World.Marks quiet (m + n) w₁ w₃ := by
  obtain ⟨δ₁, hδ₁, h₁⟩ := h₁
  obtain ⟨δ₂, hδ₂, h₂⟩ := h₂
  exact ⟨δ₁ ++ δ₂, by rw [hδ₂, hδ₁, List.append_assoc], by rw [List.countP_append]; omega⟩

theorem Marks.mono {m n : Nat} (h : World.Marks quiet m w₁ w₂) (hmn : m ≤ n) :
    World.Marks quiet n w₁ w₂ :=
  let ⟨δ, hδ, hm⟩ := h
  ⟨δ, hδ, hm.trans hmn⟩

theorem Marks.of_begin {n : Nat} {arena : Option Nat}
    (h : World.Marks quiet n (w₁.scopeBegin arena).2 w₂) : World.Marks quiet n w₁ w₂ :=
  let ⟨δ, hδ, hn⟩ := h
  ⟨δ, by rw [hδ, World.scopeBegin_trace], hn⟩

theorem Adds.marks (h : World.Adds quiet w₁ w₂) : World.Marks quiet 0 w₁ w₂ := by
  obtain ⟨δ, hδ, hp⟩ := h
  exact ⟨δ, hδ, by rw [Nat.le_zero, List.countP_eq_zero]; simpa using hp⟩

theorem Adds.scan (h : World.Adds quiet w₁ w₂) (a : Nat) : World.Scan quiet a false false w₁ w₂ := by
  obtain ⟨δ, hδ, hp⟩ := h
  obtain ⟨s', hs', hKeep⟩ := clearScan_quiet quiet a hp false
  exact ⟨δ, hδ, hKeep rfl ▸ hs'⟩

theorem Marks.reset_top (hTop : w₁.current = none)
    (h : World.Marks quiet 1 (w₁.scopeBegin (some a)).2 w₂) :
    World.Scan quiet a false false w₁ (w₂.scopeEnd (some a) (w₁.scopeBegin (some a)).1) := by
  have hBegin : w₁.scopeBegin (some a) = (⟨none, true⟩, { w₁ with current := some a }) := by
    simp [World.scopeBegin, jsonrpcArenaScopeBegin, hTop]
  obtain ⟨δ, hδ, hCount⟩ := h.of_begin
  rw [hBegin]
  exact ⟨δ ++ [.arenaClear a], by rw [← List.append_assoc, ← hδ]; rfl, clearScan_reset quiet a hCount⟩

end World

/-- What a monitor needs of the calls the core makes inside a scope. -/
structure EpochMarks (lib : JsonLib) (σ : Type) (quiet : Event → Bool) (p q : Nat) : Prop where
  le_one : p + q ≤ 1
  close : quiet .close = true
  release : ∀ handles, quiet (.release handles) = true
  acquire : ∀ handle, quiet (.acquire handle) = true
  clear : ∀ b, quiet (.arenaClear b) = true
  parse : ∀ line (w : World σ), World.Marks quiet p w (jsonParseString lib line w).2
  process : ∀ (callbacks : Callbacks σ) value (w : World σ),
    World.Adds quiet w (jsonrpcProcessValue callbacks value w).2
  buildError : ∀ id code message (w : World σ),
    World.Adds quiet w (jsonrpcBuildError id code message w).2
  buildResult : ∀ id result (w : World σ),
    World.Adds quiet w (jsonrpcBuildResult id result w).2
  sendValue : ∀ transport value (w : World σ),
    World.Marks quiet q w (jsonrpcSendValue lib transport value w).2

theorem jsonParseString_trace (lib : JsonLib) (line : List UInt8) (w : World σ) :
    (jsonParseString lib line w).2.trace = w.trace ++ [.parse line] := by
  unfold jsonParseString
  split <;> rename_i h <;> rw [World.eq_alloc_snd h, World.alloc_snd] <;> rfl

theorem World.Inner.quiet {w w' : World σ} {held out : List Nat} (h : World.Inner w w' held out) :
    World.Adds Event.parseFree w w' :=
  h.adds.mono fun _ => Event.parseFree_of_inner

theorem parseMarks (lib : JsonLib) (σ : Type) : EpochMarks lib σ Event.parseFree 1 0 where
  le_one := le_rfl
  close := rfl
  release _ := rfl
  acquire _ := rfl
  clear _ := rfl
  parse line w := ⟨_, jsonParseString_trace lib line w, by simp [Event.parseFree]⟩
  process callbacks value w := (jsonrpcProcessValue_inner callbacks value w).quiet
  buildError id code message w := (jsonrpcBuildError_inner id code message w []).1.quiet
  buildResult id result w := (jsonrpcBuildResult_inner id result w []).quiet
  sendValue transport value w := (jsonrpcSendValue_inner lib transport value w []).quiet.marks

theorem sendMarks (lib : JsonLib) (σ : Type) : EpochMarks lib σ Event.silent 0 1 where
  le_one := le_rfl
  close := rfl
  release _ := rfl
  acquire _ := rfl
  clear _ := rfl
  parse line w := ⟨_, jsonParseString_trace lib line w, by simp [Event.silent]⟩
  process callbacks value w := (jsonrpcProcessValue_reply callbacks value w).1
  buildError id code message w := (jsonrpcBuildError_reply id code message w).1
  buildResult id result w := (jsonrpcBuildResult_reply id result w).1
  sendValue transport value w := by
    rcases jsonrpcSendValue_trace lib transport value w with h | h
    exacts [⟨[], by rw [h, List.append_nil], by simp⟩, ⟨_, h, by simp [Event.silent]⟩]

namespace EpochMarks

variable {lib : JsonLib} {quiet : Event → Bool} {p q a : Nat} (hM : EpochMarks lib σ quiet p q)
include hM

theorem scopeEnd (arena : Option Nat) (scope : JsonrpcArenaScope) (w : World σ) :
    World.Adds quiet w (w.scopeEnd arena scope) :=
  (World.scopeEnd_adds arena scope w).mono fun e he => by
    cases e <;> simp_all [Event.tidy, hM.release, hM.clear]

theorem jsonValueFree (v : Owned) (w : World σ) : World.Adds quiet w (jsonValueFree v w) :=
  .emit w _ (hM.release _)

theorem freeOpt (value : Option Owned) (w : World σ) : World.Adds quiet w (w.freeOpt value) := by
  cases value
  exacts [.of_eq rfl, hM.jsonValueFree _ _]

theorem closeOnFailure (transport : Transport) (sent : Bool) (w : World σ) :
    World.Adds quiet w (jsonrpcCloseOnFailure transport sent w).2 := by
  rw [jsonrpcCloseOnFailure_eq]
  split_ifs
  exacts [.emit w .close hM.close, .of_eq rfl]

theorem sendError_scoped (conn : JsonrpcConn σ) (id : Option JsonValue) (code : Int)
    (message : Option String) (w : World σ) :
    ∃ w₁, World.Marks quiet q (w.scopeBegin conn.arena).2 w₁ ∧
      (jsonrpcConnSendError lib (some conn) id code message w).2 =
        w₁.scopeEnd conn.arena (w.scopeBegin conn.arena).1 := by
  unfold jsonrpcConnSendError
  dsimp only
  rcases w.scopeBegin conn.arena with ⟨scope, w₀⟩
  dsimp only
  have hBuild := hM.buildError id code message w₀
  split
  · rename_i w₁ h
    rw [h] at hBuild
    exact ⟨w₁, hBuild.marks.mono (Nat.zero_le _), rfl⟩
  · rename_i response w₁ h
    rw [h] at hBuild
    exact ⟨_, ((hBuild.marks.trans (hM.sendValue _ response w₁)).trans
      (hM.jsonValueFree _ _).marks).mono (by omega), rfl⟩

theorem sendError (conn : JsonrpcConn σ) (id : Option JsonValue) (code : Int)
    (message : Option String) (w : World σ) :
    World.Marks quiet q w (jsonrpcConnSendError lib (some conn) id code message w).2 := by
  obtain ⟨w₁, hMarks, hEq⟩ := hM.sendError_scoped conn id code message w
  rw [hEq]
  exact (hMarks.of_begin.trans (hM.scopeEnd _ _ w₁).marks).mono (by omega)

theorem epoch_scoped (conn : JsonrpcConn σ) (line : List UInt8) (w : World σ) :
    ∃ w₁, World.Marks quiet 1 (w.scopeBegin conn.arena).2 w₁ ∧
      (jsonrpcMessageEpoch lib conn line w).2 = w₁.scopeEnd conn.arena (w.scopeBegin conn.arena).1 := by
  have hOne := hM.le_one
  have hError : ∀ (code : Int) (w₁ : World σ), World.Marks quiet q w₁
      (jsonrpcCloseOnFailure conn.transport (jsonrpcConnSendError lib (some conn) none code none w₁).1
        (jsonrpcConnSendError lib (some conn) none code none w₁).2).2 := fun code w₁ =>
    ((hM.sendError conn none code none w₁).trans (hM.closeOnFailure _ _ _).marks).mono (by omega)
  unfold jsonrpcMessageEpoch
  rcases hBegin : w.scopeBegin conn.arena with ⟨scope, w₀⟩
  dsimp only
  have hAlloc : World.Marks quiet 0 w₀ w₀.alloc.2 := (World.Adds.of_eq rfl).then_alloc.marks
  rcases hA : w₀.alloc with ⟨_ | _, w₁⟩ <;> obtain rfl := World.eq_alloc_snd hA <;> dsimp only
  · exact ⟨_, (hAlloc.trans (hError _ _)).mono (by omega), rfl⟩
  have hParse := hAlloc.trans (hM.parse line w₀.alloc.2)
  generalize jsonParseString lib line w₀.alloc.2 = parsed at hParse ⊢
  obtain ⟨_ | request, w₂⟩ := parsed <;> dsimp only at hParse ⊢
  · exact ⟨_, (hParse.trans (hError _ _)).mono (by omega), rfl⟩
  have hProc := hM.process conn.callbacks (some request) w₂
  generalize jsonrpcProcessValue conn.callbacks (some request) w₂ = processed at hProc ⊢
  obtain ⟨_ | response, w₃⟩ := processed <;> dsimp only at hProc ⊢
  · exact ⟨_, ((hParse.trans hProc.marks).trans (hM.jsonValueFree ⟨request, []⟩ w₃).marks).mono
      (by omega), rfl⟩
  have hSend := hM.sendValue conn.transport response w₃
  generalize jsonrpcSendValue lib conn.transport response w₃ = sent at hSend ⊢
  obtain ⟨sent, w₄⟩ := sent
  have hTidy := ((hM.closeOnFailure conn.transport sent w₄).trans
    ((hM.jsonValueFree response _).trans (hM.jsonValueFree ⟨request, []⟩ _))).marks
  exact ⟨_, (((hParse.trans hProc.marks).trans hSend).trans hTidy).mono (by omega), rfl⟩

theorem epoch_scan {conn : JsonrpcConn σ} (hArena : conn.arena = some a) {line : List UInt8}
    {w w' : World σ} {stop : Bool} (hEpoch : jsonrpcMessageEpoch lib conn line w = (stop, w'))
    (hTop : w.current = none) : World.Scan quiet a false false w w' := by
  obtain ⟨w₁, hMarks, hEq⟩ := hM.epoch_scoped conn line w
  rw [hEpoch] at hEq
  rw [show w' = _ from hEq]
  rw [hArena] at hMarks ⊢
  exact World.Marks.reset_top hTop hMarks

theorem sendError_scan {conn : Option (JsonrpcConn σ)} (hArena : ∀ c, conn = some c → c.arena = some a)
    (id : Option JsonValue) (code : Int) (message : Option String) {w : World σ}
    (hTop : w.current = none) :
    World.Scan quiet a false false w (jsonrpcConnSendError lib conn id code message w).2 := by
  cases conn with
  | none => exact .refl quiet a false w
  | some conn =>
    obtain ⟨w₁, hMarks, hEq⟩ := hM.sendError_scoped conn id code message w
    rw [hEq]
    rw [hArena conn rfl] at hMarks ⊢
    exact World.Marks.reset_top hTop (hMarks.mono (by have := hM.le_one; omega))

theorem sendResult_scan {conn : Option (JsonrpcConn σ)} (hArena : ∀ c, conn = some c → c.arena = some a)
    (id result : Option JsonValue) {w : World σ} (hTop : w.current = none) :
    World.Scan quiet a false false w (jsonrpcConnSendResult lib conn id result w).2 := by
  have hTake : World.Adds quiet w (World.take result w).2 := by
    cases result
    exacts [.of_eq rfl, .emit _ _ (hM.acquire _)]
  have hCurrent : (World.take result w).2.current = none := by cases result <;> exact hTop
  unfold jsonrpcConnSendResult
  generalize World.take result w = taken at hTake hCurrent ⊢
  obtain ⟨result, w₁⟩ := taken
  dsimp only at hTake hCurrent ⊢
  split
  · rename_i conn result
    rw [hArena conn rfl]
    have hBuild := hM.buildResult id (some result) (w₁.scopeBegin (some a)).2
    split
    · rename_i w₂ h
      rw [h] at hBuild
      exact (hTake.scan a).trans (World.Marks.reset_top hCurrent (hBuild.marks.mono (Nat.zero_le _)))
    · rename_i response w₂ h
      rw [h] at hBuild
      exact (hTake.scan a).trans (World.Marks.reset_top hCurrent
        (((hBuild.marks.trans (hM.sendValue _ response w₂)).trans
          (hM.jsonValueFree _ _).marks).mono (by have := hM.le_one; omega)))
  · exact (hTake.trans (hM.freeOpt _ _)).scan a

theorem requestTooLarge_scan {conn : JsonrpcConn σ} (hArena : conn.arena = some a) {w : World σ}
    (hTop : w.current = none) : World.Scan quiet a false false w (jsonrpcRequestTooLarge lib conn w) := by
  have hSend : World.Scan quiet a false false w (jsonrpcConnSendError lib (some conn) none
      jsonrpcErrInvalidRequest (some "Request too large") w).2 :=
    hM.sendError_scan (fun c hc => by cases hc; exact hArena) _ _ _ hTop
  unfold jsonrpcRequestTooLarge
  generalize jsonrpcConnSendError lib (some conn) none jsonrpcErrInvalidRequest
    (some "Request too large") w = r at hSend ⊢
  obtain ⟨sent, w₁⟩ := r
  dsimp only
  have hClose := hSend.trans ((World.Adds.emit w₁ .close hM.close).scan a)
  split_ifs
  exacts [hClose, hClose, hSend]

theorem feedLoop_scan (fuel : Nat) :
    ∀ (conn : JsonrpcConn σ) (w : World σ), conn.arena = some a → w.current = none →
      World.Scan quiet a false false w (jsonrpcFeedLoop lib fuel conn w).2 := by
  induction fuel with
  | zero => intro conn w _ _; exact .refl quiet a false w
  | succ fuel ih =>
    intro conn w hArena hTop
    simp only [jsonrpcFeedLoop]
    split
    · exact .refl quiet a false w
    · split_ifs
      · exact ih _ w hArena hTop
      · exact hM.requestTooLarge_scan hArena hTop
      · split
        · rename_i w₁ hEpoch
          exact hM.epoch_scan hArena hEpoch hTop
        · rename_i w₁ hEpoch
          have hCurrent := (congrArg (fun r => r.2.current) hEpoch).symm.trans
            (jsonrpcMessageEpoch_current lib _ _ w)
          exact (hM.epoch_scan hArena hEpoch hTop).trans (ih _ w₁ hArena (hCurrent.trans hTop))

theorem feed_scan {conn : JsonrpcConn σ} (hArena : conn.arena = some a) (data : List UInt8)
    {w : World σ} (hTop : w.current = none) :
    World.Scan quiet a false false w (jsonrpcConnFeed lib conn data w).2 := by
  unfold jsonrpcConnFeed
  split
  · exact .refl quiet a false w
  · split
    split
    · exact hM.requestTooLarge_scan hArena hTop
    · exact hM.feedLoop_scan _ _ w hArena hTop

end EpochMarks

theorem jsonrpcConnFeed_arena (lib : JsonLib) (conn : JsonrpcConn σ) (data : List UInt8)
    (w : World σ) : (jsonrpcConnFeed lib conn data w).1.arena = conn.arena := by
  unfold jsonrpcConnFeed
  split
  · rfl
  · split
    split
    · rfl
    · rw [(jsonrpcFeedLoop_spec lib _ _ w).2.2]

/-- A connection the table `conns'` holds sits where one with the same arena sat in `conns`. -/
def SameArenas (conns conns' : List (Option (JsonrpcConn σ))) : Prop :=
  ∀ i c', conns'.getD i none = some c' → ∃ c, conns.getD i none = some c ∧ c'.arena = c.arena

theorem SameArenas.refl (conns : List (Option (JsonrpcConn σ))) : SameArenas conns conns :=
  fun _ c' h => ⟨c', h, rfl⟩

theorem SameArenas.trans {conns₁ conns₂ conns₃ : List (Option (JsonrpcConn σ))}
    (h₁ : SameArenas conns₁ conns₂) (h₂ : SameArenas conns₂ conns₃) : SameArenas conns₁ conns₃ := by
  intro i c₃ h
  obtain ⟨c₂, hc₂, hEq₂⟩ := h₂ i c₃ h
  obtain ⟨c₁, hc₁, hEq₁⟩ := h₁ i c₂ hc₂
  exact ⟨c₁, hc₁, hEq₂.trans hEq₁⟩

theorem getD_set_eq_some {l : List (Option (JsonrpcConn σ))} {i j : Nat} {x : Option (JsonrpcConn σ)}
    {c : JsonrpcConn σ} (h : (l.set i x).getD j none = some c) :
    (i = j ∧ x = some c) ∨ l.getD j none = some c := by
  simp only [List.getD_eq_getElem?_getD, List.getElem?_set] at h ⊢
  split_ifs at h <;> simp_all

theorem ConnCall.step_sameArenas (lib : JsonLib) (call : ConnCall)
    (conns : List (Option (JsonrpcConn σ))) (w : World σ) :
    SameArenas conns (call.step lib (conns, w)).1 := by
  cases call with
  | feed i data =>
    simp only [ConnCall.step]
    split
    · exact .refl conns
    · rename_i conn hConn
      intro j c' h
      rcases getD_set_eq_some h with ⟨rfl, hc⟩ | h
      · cases hc
        exact ⟨conn, hConn, jsonrpcConnFeed_arena lib conn data w⟩
      · exact ⟨c', h, rfl⟩
  | sendResult => exact .refl conns
  | sendError => exact .refl conns
  | free i =>
    simp only [ConnCall.step]
    split
    · exact .refl conns
    · intro j c' h
      rcases getD_set_eq_some h with ⟨-, hc⟩ | h
      · cases hc
      · exact ⟨c', h, rfl⟩

def ConnCall.conn : ConnCall → Nat
  | .feed i _ | .sendResult i _ _ | .sendError i _ _ _ | .free i => i

namespace EpochMarks

variable {lib : JsonLib} {quiet : Event → Bool} {p q a : Nat} (hM : EpochMarks lib σ quiet p q)
include hM

theorem step_scan (call : ConnCall) {conns : List (Option (JsonrpcConn σ))}
    (hEntry : ∀ c, conns.getD call.conn none = some c → c.arena = some a) {w : World σ}
    (hTop : w.current = none) : World.Scan quiet a false false w (call.step lib (conns, w)).2 := by
  cases call with
  | feed i data =>
    simp only [ConnCall.step]
    split
    · exact .refl quiet a false w
    · rename_i conn hConn
      exact hM.feed_scan (hEntry conn hConn) data hTop
  | sendResult i id result => exact hM.sendResult_scan hEntry id result hTop
  | sendError i id code message => exact hM.sendError_scan hEntry id code message hTop
  | free i =>
    simp only [ConnCall.step]
    split
    · exact .refl quiet a false w
    · rw [jsonrpcConnFree_world]
      split_ifs <;> exact (World.Adds.of_eq rfl).scan a

end EpochMarks

theorem runCalls_segments (lib : JsonLib) (conns₀ : List (Option (JsonrpcConn σ)))
    (calls : List ConnCall) :
    ∀ (conns : List (Option (JsonrpcConn σ))) (w : World σ), SameArenas conns₀ conns →
      w.current = none → ∃ segs : List (List Event),
        (runCalls lib calls (conns, w)).2.trace = w.trace ++ segs.flatten ∧
        List.Forall₂ (fun call seg => ∀ c a, conns₀.getD call.conn none = some c → c.arena = some a →
          ∀ quiet p q, EpochMarks lib σ quiet p q → clearScan quiet a false seg = some false) calls segs := by
  induction calls with
  | nil => intro conns w _ _; exact ⟨[], by simp [runCalls], .nil⟩
  | cons call calls ih =>
    intro conns w hSame hTop
    obtain ⟨hLedger, hBound⟩ := call.step_spec lib conns w
    obtain ⟨seg, hSeg, -⟩ := hLedger.trace
    obtain ⟨segs, hSegs, hAll⟩ :=
      ih _ _ (hSame.trans (call.step_sameArenas lib conns w)) (hBound hTop)
    refine ⟨seg :: segs, hSegs.trans (by rw [hSeg, List.flatten_cons, List.append_assoc]), .cons ?_ hAll⟩
    intro c a hc hArena quiet p q hM
    have hEntry : ∀ c', conns.getD call.conn none = some c' → c'.arena = some a := fun c' h' => by
      obtain ⟨c₀, h₀, hEq⟩ := hSame _ c' h'
      rw [hc] at h₀
      cases h₀
      exact hEq.trans hArena
    obtain ⟨δ, hδ, hScan⟩ := hM.step_scan call hEntry hTop
    rwa [List.append_cancel_left (hSeg.symm.trans hδ)]

/-- One call's events: each parse and each `send_raw` is followed by a reset of `a`. -/
def ResetsEach (a : Nat) (seg : List Event) : Prop :=
  (∀ u line v, seg = u ++ .parse line :: v →
    ∃ v₁ v₂, v = v₁ ++ .arenaClear a :: v₂ ∧ ∀ l, Event.parse l ∉ v₁) ∧
  (∀ u payload v, seg = u ++ .sendRaw payload :: v →
    ∃ v₁ v₂, v = v₁ ++ .arenaClear a :: v₂ ∧ ∀ p, Event.sendRaw p ∉ v₁)

/-- Each message is parsed in an arena reset since the one before, and gets at most one reply. -/
theorem runCalls_one_message_per_reset (lib : JsonLib) (calls : List ConnCall)
    (conns : List (Option (JsonrpcConn σ))) (w : World σ) (hTop : w.current = none) :
    ∃ segs : List (List Event), (runCalls lib calls (conns, w)).2.trace = w.trace ++ segs.flatten ∧
      List.Forall₂ (fun call seg => ∀ conn a, conns.getD call.conn none = some conn →
        conn.arena = some a → ResetsEach a seg) calls segs := by
  obtain ⟨segs, hSegs, hAll⟩ := runCalls_segments lib conns calls conns w (.refl conns) hTop
  refine ⟨segs, hSegs, hAll.imp fun call seg hSeg conn a hConn hArena => ⟨?_, ?_⟩⟩
  · intro u line v hv
    obtain ⟨v₁, v₂, rfl, hv₁⟩ := clearScan_sound _ a (fun _ => rfl)
      (hSeg conn a hConn hArena _ _ _ (parseMarks lib σ)) u _ v hv rfl
    exact ⟨v₁, v₂, rfl, fun l hl => by simpa [Event.parseFree] using hv₁ _ hl⟩
  · intro u payload v hv
    obtain ⟨v₁, v₂, rfl, hv₁⟩ := clearScan_sound _ a (fun _ => rfl)
      (hSeg conn a hConn hArena _ _ _ (sendMarks lib σ)) u _ v hv rfl
    exact ⟨v₁, v₂, rfl, fun p hp => by simpa [Event.silent] using hv₁ _ hp⟩

theorem runCalls_one_message_per_reset_two_conns :
    ∃ segs : List (List Event),
      (runCalls ⟨fun _ => none, fun _ => []⟩ [.feed 0 [49, 10], .feed 1 [50, 10], .sendError 0 none 1 none]
        ([some (jsonrpcConnNew ⟨true, true⟩ (⟨none, none⟩ : Callbacks Unit) ⟨[], 0, []⟩ (some 0)),
          some (jsonrpcConnNew ⟨true, true⟩ (⟨none, none⟩ : Callbacks Unit) ⟨[], 0, []⟩ (some 1))],
          ⟨(), [], 0, none, []⟩)).2.trace = (⟨(), [], 0, none, []⟩ : World Unit).trace ++ segs.flatten ∧
      List.Forall₂ (fun call seg => ∀ conn a,
        [some (jsonrpcConnNew ⟨true, true⟩ (⟨none, none⟩ : Callbacks Unit) ⟨[], 0, []⟩ (some 0)),
          some (jsonrpcConnNew ⟨true, true⟩ (⟨none, none⟩ : Callbacks Unit) ⟨[], 0, []⟩ (some 1))].getD
            (ConnCall.conn call) none = some conn → conn.arena = some a → ResetsEach a seg)
        [.feed 0 [49, 10], .feed 1 [50, 10], .sendError 0 none 1 none] segs :=
  runCalls_one_message_per_reset _ _ _ _ rfl

end

end JsonRpc
