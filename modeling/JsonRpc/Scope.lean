import Mathlib.Data.List.Basic

/-! # Arena scopes

`g_current_arena` is the process-wide binding the allocator shim reads. A scope binds the
connection's arena unless that arena is already the bound one; its end clears the arena
and restores the earlier binding only when its begin changed the binding. Calls made by
handlers and transports nest scopes inside scopes, of any connection. The server's event loop
makes its public calls one after another, and while no scope binds an arena that an enclosing
scope bound, no `scope_end` clears an arena that an open scope still binds.
-/

namespace JsonRpc
set_option autoImplicit false

structure JsonrpcArenaScope where
  prev : Option Nat
  changed : Bool
  deriving DecidableEq

def jsonrpcArenaScopeBegin (current arena : Option Nat) : JsonrpcArenaScope × Option Nat :=
  if arena = none ∨ current = arena then (⟨current, false⟩, current)
  else (⟨current, true⟩, arena)

def jsonrpcArenaScopeEnd (current arena : Option Nat) (scope : JsonrpcArenaScope) :
    Option Nat × Option Nat :=
  if scope.changed then (scope.prev, arena) else (current, none)

/-- The scopes a run opens: each with the scopes opened inside it, then those after it. -/
inductive ScopeTree where
  | done
  | scope (arena : Option Nat) (inner next : ScopeTree)

/-- A run of scopes: the final binding, and each cleared arena with the bindings open around it. -/
def runScopes (enclosing : List (Option Nat)) : ScopeTree → Option Nat →
    Option Nat × List (Nat × List (Option Nat))
  | .done, current => (current, [])
  | .scope arena inner next, current =>
    let (scope, bound) := jsonrpcArenaScopeBegin current arena
    let (afterInner, clearsInner) := runScopes (bound :: enclosing) inner bound
    let (restored, cleared) := jsonrpcArenaScopeEnd afterInner arena scope
    let (final, clearsNext) := runScopes enclosing next restored
    (final, clearsInner ++ (cleared.map fun x => (x, enclosing)).toList ++ clearsNext)

theorem jsonrpcArenaScopeEnd_begin (current arena : Option Nat) :
    (jsonrpcArenaScopeEnd (jsonrpcArenaScopeBegin current arena).2 arena
      (jsonrpcArenaScopeBegin current arena).1).1 = current := by
  unfold jsonrpcArenaScopeBegin jsonrpcArenaScopeEnd
  split <;> rfl

theorem runScopes_binding (tree : ScopeTree) :
    ∀ (enclosing : List (Option Nat)) (current : Option Nat),
      (runScopes enclosing tree current).1 = current := by
  induction tree with
  | done => intro _ _; rfl
  | scope arena inner next ihInner ihNext =>
    intro enclosing current
    simp only [runScopes, ihInner, ihNext, jsonrpcArenaScopeEnd_begin]

theorem runScopes_scope_clears (enclosing : List (Option Nat)) (arena : Option Nat)
    (inner next : ScopeTree) (current : Option Nat) :
    (runScopes enclosing (.scope arena inner next) current).2 =
      (runScopes ((jsonrpcArenaScopeBegin current arena).2 :: enclosing) inner
          (jsonrpcArenaScopeBegin current arena).2).2 ++
        ((jsonrpcArenaScopeEnd (jsonrpcArenaScopeBegin current arena).2 arena
          (jsonrpcArenaScopeBegin current arena).1).2.map fun x => (x, enclosing)).toList ++
        (runScopes enclosing next current).2 := by
  simp only [runScopes, runScopes_binding, jsonrpcArenaScopeEnd_begin]

/-- No scope binds an arena that an enclosing scope bound. -/
def ScopeTree.reentryFree (opened : List Nat) (current : Option Nat) : ScopeTree → Bool
  | .done => true
  | .scope arena inner next =>
    if arena = none ∨ current = arena then
      inner.reentryFree opened current && next.reentryFree opened current
    else
      arena.all (fun x => !opened.contains x) && inner.reentryFree (arena.toList ++ opened) arena &&
        next.reentryFree opened current

theorem runScopes_reentryFree_clears (tree : ScopeTree) :
    ∀ (opened : List Nat) (enclosing : List (Option Nat)) (current : Option Nat),
      (∀ x, current = some x ∨ some x ∈ enclosing → x ∈ opened) →
      tree.reentryFree opened current = true →
      ∀ c ∈ (runScopes enclosing tree current).2, some c.1 ∉ c.2 := by
  induction tree with
  | done => intro _ _ _ _ _; simp [runScopes]
  | scope arena inner next ihInner ihNext =>
    intro opened enclosing current hOpen hFree c hc
    rw [runScopes_scope_clears] at hc
    simp only [List.mem_append] at hc
    unfold ScopeTree.reentryFree at hFree
    unfold jsonrpcArenaScopeBegin jsonrpcArenaScopeEnd at hc
    by_cases hKeep : arena = none ∨ current = arena
    · rw [if_pos hKeep] at hFree hc
      simp only [Bool.and_eq_true] at hFree
      rcases hc with (hc | hc) | hc
      · exact ihInner opened _ current (fun x hx => by
          rcases hx with hx | hx
          · exact hOpen x (.inl hx)
          · rcases List.mem_cons.mp hx with hx | hx
            · exact hOpen x (.inl hx.symm)
            · exact hOpen x (.inr hx)) hFree.1 c hc
      · simp at hc
      · exact ihNext opened enclosing current hOpen hFree.2 c hc
    · rw [if_neg hKeep] at hFree hc
      simp only [Bool.and_eq_true] at hFree
      obtain ⟨⟨hFresh, hInner⟩, hNext⟩ := hFree
      obtain ⟨x, rfl⟩ : ∃ x, arena = some x := Option.ne_none_iff_exists'.mp fun h => hKeep (.inl h)
      have hNotOpened : x ∉ opened := by simpa using hFresh
      rcases hc with (hc | hc) | hc
      · exact ihInner (x :: opened) _ (some x) (fun y hy => by
          rcases hy with hy | hy
          · obtain rfl := Option.some_injective _ hy
            exact List.mem_cons_self _ _
          · rcases List.mem_cons.mp hy with hy | hy
            · obtain rfl := Option.some_injective _ hy
              exact List.mem_cons_self _ _
            · exact List.mem_cons_of_mem _ (hOpen y (.inr hy))) hInner c hc
      · obtain rfl : c = (x, enclosing) := by simpa using hc
        exact fun hMem => hNotOpened (hOpen x (.inr hMem))
      · exact ihNext opened enclosing current hOpen hNext c hc

theorem runScopes_reentryFree (tree : ScopeTree) (h : tree.reentryFree [] none = true) :
    ∀ c ∈ (runScopes [] tree none).2, some c.1 ∉ c.2 :=
  runScopes_reentryFree_clears tree [] [] none (by simp) h

theorem runScopes_reentryFree_feed_send :
    (ScopeTree.scope (some 0) (.scope (some 0) .done (.scope (some 1) .done .done)) .done).reentryFree
        [] none = true ∧
      ∀ c ∈ (runScopes [] (.scope (some 0) (.scope (some 0) .done (.scope (some 1) .done .done))
          .done) none).2, some c.1 ∉ c.2 :=
  ⟨rfl, runScopes_reentryFree _ rfl⟩

example : (ScopeTree.scope (some 0) (.scope (some 1) (.scope (some 0) .done .done) .done)
    .done).reentryFree [] none = false := rfl

/-- `feed(A)` calls `send_error(B)`, which calls `send_result(A)`: `A`'s arena is cleared early. -/
theorem runScopes_clears_open_arena :
    (0, [some 1, some 0]) ∈
      (runScopes [] (.scope (some 0) (.scope (some 1) (.scope (some 0) .done .done) .done) .done)
        none).2 := by
  decide

end JsonRpc
