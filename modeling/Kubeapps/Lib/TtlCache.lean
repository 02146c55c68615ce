/-
  One cache with a lifetime between many clients.

  A client reads files of its server. What it reads it puts under its place in the cache, and for
  `ttl` after that everyone with the same place may get it from there. The cache is a parameter: a
  `TtlCache` has only the laws that are used here. What the servers have is a function of the time.

  * `answers_recent`: in every run, an answer is what the server of some client with the same place
    had, at most `ttl` before.
  * `answers_own_iff`: every answer of every run is one of the client's own server exactly if
    clients with the same place have the same server.
-/
import Kubeapps.Lib.Steps
import Mathlib.Logic.Nontrivial.Basic

namespace Kubeapps.Lib

/-- A cache with a lifetime: what it gives was written under this place and name at most `ttl`
    before, and what was just written it gives. -/
structure TtlCache (κ φ α δ : Type) (ttl : Nat) where
  empty : δ
  lookup : δ → Nat → κ → φ → Option α
  write : δ → Nat → κ → φ → α → δ
  lookup_empty : ∀ now k f, lookup empty now k f = none
  lookup_write_self : ∀ d now k f a, lookup (write d now k f a) now k f = some a
  lookup_write : ∀ d t k f a now k' f' b, lookup (write d t k f a) now k' f' = some b →
    (k' = k ∧ f' = f ∧ b = a ∧ now ≤ t + ttl) ∨ lookup d now k' f' = some b

variable {ρ κ ς φ α δ : Type} {ttl : Nat}

/-- The cache that keeps the last write with its time. -/
def TtlCache.table [DecidableEq κ] [DecidableEq φ] (ttl : Nat) :
    TtlCache κ φ α (List (Nat × κ × φ × α)) ttl where
  empty := []
  lookup d now k f :=
    (d.find? fun e => e.2.1 = k ∧ e.2.2.1 = f).bind fun e =>
      if now ≤ e.1 + ttl then some e.2.2.2 else none
  write d t k f a := (t, k, f, a) :: d
  lookup_empty _ _ _ := rfl
  lookup_write_self d now k f a := by simp
  lookup_write d t k f a now k' f' b h := by
    by_cases hkey : k = k' ∧ f = f'
    · simp only [List.find?_cons, hkey, and_self, decide_true, Option.bind_some] at h
      split at h
      · rename_i hnow
        exact Or.inl ⟨hkey.1.symm, hkey.2.symm, (Option.some.inj h).symm, hnow⟩
      · simp at h
    · simp only [List.find?_cons, hkey, decide_false] at h
      exact Or.inr h

/-- What a client was given, and when. -/
structure Reading (ρ φ α : Type) where
  client : ρ
  file : φ
  content : α
  time : Nat
  deriving DecidableEq, Repr

structure CacheRun (ρ φ α δ : Type) where
  now : Nat
  disk : δ
  answers : List (Reading ρ φ α)

inductive CacheLabel (ρ φ : Type) where
  | tick
  | ask (client : ρ) (file : φ)
  /-- A client that does not look into the cache. -/
  | reask (client : ρ) (file : φ)
  deriving DecidableEq, Repr

namespace TtlCache

variable (cache : TtlCache κ φ α δ ttl) (place : ρ → κ) (server : ρ → ς)
  (offer : Nat → ς → φ → Option α)

def start : CacheRun ρ φ α δ := ⟨0, cache.empty, []⟩

/-- Ask the server, and put what it answers into the cache. -/
def fetch (s : CacheRun ρ φ α δ) (client : ρ) (file : φ) : CacheRun ρ φ α δ :=
  match offer s.now (server client) file with
  | none => s
  | some a =>
      { s with
        disk := cache.write s.disk s.now (place client) file a
        answers := s.answers ++ [⟨client, file, a, s.now⟩] }

def step (s : CacheRun ρ φ α δ) : CacheLabel ρ φ → Option (CacheRun ρ φ α δ)
  | .tick => some { s with now := s.now + 1 }
  | .reask client file => some (cache.fetch place server offer s client file)
  | .ask client file =>
      match cache.lookup s.disk s.now (place client) file with
      | some a => some { s with answers := s.answers ++ [⟨client, file, a, s.now⟩] }
      | none => some (cache.fetch place server offer s client file)

/-- The server of some client with this place had this content, at most `ttl` before. -/
def Recent (ttl : Nat) (k : κ) (f : φ) (a : α) (now : Nat) : Prop :=
  ∃ r t, place r = k ∧ t ≤ now ∧ now ≤ t + ttl ∧ offer t (server r) f = some a

/-- The client's own server had this content, at most `ttl` before. -/
def Own (ttl : Nat) (x : Reading ρ φ α) : Prop :=
  ∃ t ≤ x.time, x.time ≤ t + ttl ∧ offer t (server x.client) x.file = some x.content

/-- Whatever the cache gives from now on, and whatever was answered, is recent. -/
structure Inv (s : CacheRun ρ φ α δ) : Prop where
  disk : ∀ now k f a, s.now ≤ now → cache.lookup s.disk now k f = some a →
    Recent place server offer ttl k f a now
  answers : ∀ x ∈ s.answers, Recent place server offer ttl (place x.client) x.file x.content x.time

variable {cache place server offer} {s s' : CacheRun ρ φ α δ}

theorem inv_start : cache.Inv place server offer cache.start where
  disk now k f a _ h := by
    rw [start, cache.lookup_empty] at h
    simp at h
  answers x h := by
    rw [start] at h
    simp at h

/-- One more recent answer. -/
theorem inv_answer (hinv : cache.Inv place server offer s) {client : ρ} {file : φ} {a : α}
    (ha : Recent place server offer ttl (place client) file a s.now) :
    cache.Inv place server offer { s with answers := s.answers ++ [⟨client, file, a, s.now⟩] } where
  disk := hinv.disk
  answers x hx := by
    rcases List.mem_append.mp hx with hx | hx
    · exact hinv.answers x hx
    · rw [List.mem_singleton.mp hx]
      exact ha

theorem inv_fetch (hinv : cache.Inv place server offer s) (client : ρ) (file : φ) :
    cache.Inv place server offer (cache.fetch place server offer s client file) := by
  unfold fetch
  split
  · exact hinv
  · rename_i a hoffer
    have hrecent : Recent place server offer ttl (place client) file a s.now :=
      ⟨client, s.now, rfl, Nat.le_refl _, Nat.le_add_right _ _, hoffer⟩
    have hwrite : cache.Inv place server offer
        { s with disk := cache.write s.disk s.now (place client) file a } := by
      refine ⟨fun now k f b hnow hlookup => ?_, hinv.answers⟩
      rcases cache.lookup_write _ _ _ _ _ _ _ _ _ hlookup with ⟨rfl, rfl, rfl, hlife⟩ | hlookup
      · exact ⟨client, s.now, rfl, hnow, hlife, hoffer⟩
      · exact hinv.disk now k f b hnow hlookup
    exact inv_answer hwrite hrecent

theorem inv_step {l : CacheLabel ρ φ} (hinv : cache.Inv place server offer s)
    (hstep : cache.step place server offer s l = some s') : cache.Inv place server offer s' := by
  cases l with
  | tick =>
      rw [← Option.some.inj hstep]
      exact ⟨fun now k f a hnow => hinv.disk now k f a (Nat.le_of_succ_le hnow), hinv.answers⟩
  | reask client file =>
      rw [← Option.some.inj hstep]
      exact inv_fetch hinv client file
  | ask client file =>
      unfold step at hstep
      dsimp only at hstep
      split at hstep
      · rename_i a hlookup
        rw [← Option.some.inj hstep]
        exact inv_answer hinv (hinv.disk _ _ _ _ (Nat.le_refl _) hlookup)
      · rw [← Option.some.inj hstep]
        exact inv_fetch hinv client file

/-- In every run, every answer is recent. -/
theorem answers_recent {ls : List (CacheLabel ρ φ)}
    (hruns : runs (cache.step place server offer) cache.start ls = some s) {x : Reading ρ φ α}
    (hx : x ∈ s.answers) :
    Recent place server offer ttl (place x.client) x.file x.content x.time :=
  (runs_invariant (fun _ _ _ => inv_step) hruns inv_start).answers x hx

/-- An answer is the client's own if all clients with its place have its server. -/
theorem own_of_recent {x : Reading ρ φ α}
    (hx : Recent place server offer ttl (place x.client) x.file x.content x.time)
    (hplace : ∀ r, place r = place x.client → server r = server x.client) :
    Own server offer ttl x := by
  obtain ⟨r, t, hr, hle, hlife, hoffer⟩ := hx
  rw [hplace r hr] at hoffer
  exact ⟨t, hle, hlife, hoffer⟩

/-- Two clients with one place, the second right after the first: both get what the first has
    read. -/
theorem second_answer {r r' : ρ} {f : φ} {a : α} (hplace : place r = place r')
    (hoffer : offer 0 (server r) f = some a) :
    ∃ s, runs (cache.step place server offer) cache.start [.ask r f, .ask r' f] = some s ∧
      ⟨r', f, a, 0⟩ ∈ s.answers := by
  refine ⟨⟨0, cache.write cache.empty 0 (place r) f a, [⟨r, f, a, 0⟩, ⟨r', f, a, 0⟩]⟩, ?_, by simp⟩
  have hsecond : cache.lookup (cache.write cache.empty 0 (place r) f a) 0 (place r') f = some a := by
    rw [← hplace]
    exact cache.lookup_write_self _ _ _ _ _
  simp [runs_cons, step, start, cache.lookup_empty, fetch, hoffer, hsecond]

variable (cache place server) in
/-- Every answer of every run is one of the client's own server exactly if clients with the same
    place have the same server. -/
theorem answers_own_iff [Nontrivial α] [Nonempty φ] :
    (∀ offer ls s, runs (cache.step place server offer) cache.start ls = some s →
      ∀ x ∈ s.answers, Own server offer ttl x) ↔
    ∀ r r', place r = place r' → server r = server r' := by
  classical
  constructor
  · intro hown r r' hplace
    by_contra hserver
    obtain ⟨a, b, hab⟩ := exists_pair_ne α
    obtain ⟨f⟩ := ‹Nonempty φ›
    let offer : Nat → ς → φ → Option α := fun _ s _ => if s = server r then some a else some b
    obtain ⟨s, hruns, hmem⟩ : ∃ s, runs (cache.step place server offer) cache.start
        [.ask r f, .ask r' f] = some s ∧ ⟨r', f, a, 0⟩ ∈ s.answers :=
      second_answer hplace (if_pos rfl)
    obtain ⟨t, -, -, hoffer⟩ := hown offer _ s hruns _ hmem
    have hother : offer t (server r') f = some b := if_neg (Ne.symm hserver)
    exact hab (Option.some.inj (hoffer.symm.trans hother))
  · intro hplace offer ls s hruns x hx
    exact own_of_recent (answers_recent hruns hx) fun r hr => hplace r x.client hr

end TtlCache

end Kubeapps.Lib
