import Mathlib.Data.Nat.Notation
import Mathlib.Data.Int.Notation
/-!
# Functions that may end the program

A C++ function that can abort is an `Exec`: it returns its result, or the
`Fault` that ended the program. Assertions are told apart by their site,
so that a theorem can speak about one of them. `bind_eq_ok` takes a
sequence of calls apart and `ensure_bind_eq_ok` the assertion in front of
the rest; proofs use these two and never unfold the monad.
-/

namespace Twstools

/-- What ends the program: a failed assertion, named by its site, an
access no object stands behind (a null pointer, the wrong packet class,
the front of an empty list), an index `at()` rejects, or the overflow of
a signed counter. A loop that is run for a number of steps and not done
is `unfinished`. -/
inductive Fault (Site : Type) where
  | assertion (site : Site)
  | badAccess
  | outOfRange
  | overflow
  | unfinished
  deriving DecidableEq, Repr

/-- A call that returns or ends the program. -/
abbrev Exec (Site α : Type) := Except (Fault Site) α

variable {Site α β : Type} {p : Prop} [Decidable p] {site : Site}

/-- `assert(p)`. -/
def ensure (p : Prop) [Decidable p] (site : Site) : Exec Site Unit :=
  if p then .ok () else .error (.assertion site)

/-- The value behind a pointer or an iterator. -/
def deref : Option α → Exec Site α
  | some a => .ok a
  | none => .error .badAccess

/-- `vector::at(i)`. -/
def atIndex (l : List α) (i : ℤ) : Exec Site α :=
  match if 0 ≤ i then l[i.toNat]? else none with
  | some a => .ok a
  | none => .error .outOfRange

namespace Exec

/-- What ended the program, if anything did. -/
def fault : Exec Site α → Option (Fault Site)
  | .ok _ => none
  | .error e => some e

theorem fault_eq_some {x : Exec Site α} {e : Fault Site} : x.fault = some e ↔ x = .error e := by
  cases x <;> simp [fault]

theorem toOption_eq_some {x : Exec Site α} {a : α} : x.toOption = some a ↔ x = .ok a := by
  cases x <;> simp [Except.toOption]

/-- **A sequence of calls returns when each of them does.** -/
@[simp] theorem bind_eq_ok {x : Exec Site α} {f : α → Exec Site β} {b : β} :
    x >>= f = .ok b ↔ ∃ a, x = .ok a ∧ f a = .ok b := by
  cases x with
  | error e => simp [bind, Except.bind]
  | ok a => simp [bind, Except.bind]

/-- It ends the program in the first call that does. -/
theorem bind_eq_error {x : Exec Site α} {f : α → Exec Site β} {e : Fault Site} :
    x >>= f = .error e ↔ x = .error e ∨ ∃ a, x = .ok a ∧ f a = .error e := by
  cases x with
  | error e => simp [bind, Except.bind]
  | ok a => simp [bind, Except.bind]

@[simp] theorem ok_bind {a : α} {f : α → Exec Site β} : (.ok a : Exec Site α) >>= f = f a := rfl

@[simp] theorem pure_eq_ok {a : α} : (pure a : Exec Site α) = .ok a := rfl

theorem map_bind {γ : Type} {x : Exec Site α} {f : α → Exec Site β} {g : β → γ} :
    (x >>= f).map g = x >>= fun a => (f a).map g := by
  cases x <;> rfl

theorem bind_map {γ : Type} {x : Exec Site α} {g : α → β} {f : β → Exec Site γ} :
    x.map g >>= f = x >>= fun a => f (g a) := by
  cases x <;> rfl

theorem map_eq_ok {x : Exec Site α} {f : α → β} {b : β} :
    x.map f = .ok b ↔ ∃ a, x = .ok a ∧ f a = b := by
  cases x with
  | error e => simp [Except.map]
  | ok a => simp [Except.map]

theorem ite_bind {a : α} {e : Fault Site} {f : α → Exec Site β} :
    (if p then .ok a else .error e : Exec Site α) >>= f = if p then f a else .error e := by
  split <;> rfl

@[simp] theorem ensure_eq_ok {u : Unit} : ensure p site = .ok u ↔ p := by
  unfold ensure
  split <;> simp_all

theorem ensure_of_true (hp : p) : ensure p site = .ok () := if_pos hp

/-- What follows an assertion runs where it holds. -/
theorem ensure_bind {f : Unit → Exec Site β} :
    ensure p site >>= f = if p then f () else .error (.assertion site) := ite_bind

@[simp] theorem ensure_eq_error {e : Fault Site} :
    ensure p site = .error e ↔ ¬ p ∧ e = .assertion site := by
  unfold ensure
  split <;> simp_all [eq_comm]

@[simp] theorem deref_eq_ok {o : Option α} {a : α} :
    (deref o : Exec Site α) = .ok a ↔ o = some a := by
  cases o <;> simp [deref]

@[simp] theorem deref_eq_error {o : Option α} {e : Fault Site} :
    (deref o : Exec Site α) = .error e ↔ o = none ∧ e = .badAccess := by
  cases o <;> simp [deref, eq_comm]

/-- **A loop that cannot fail.** The invariant speaks about the elements
still ahead. -/
theorem foldlM_ok {f : β → α → Exec Site β} {I : List α → β → Prop}
    (hf : ∀ a l b, I (a :: l) b → ∃ b', f b a = .ok b' ∧ I l b') :
    ∀ (l : List α) (b : β), I l b → ∃ b', l.foldlM f b = .ok b' ∧ I [] b'
  | [], b, hb => ⟨b, rfl, hb⟩
  | a :: l, b, hb => by
      obtain ⟨b₁, h₁, hI⟩ := hf a l b hb
      obtain ⟨b₂, h₂, hI'⟩ := foldlM_ok hf l b₁ hI
      exact ⟨b₂, by rw [List.foldlM_cons, h₁, ok_bind, h₂], hI'⟩

/-- **What a loop does not look at** does not show: when a round keeps two
states alike, the loop does. -/
theorem foldlM_map_eq {γ : Type} {f : β → α → Exec Site β} {g : β → γ}
    (hf : ∀ a b b', g b = g b' → (f b a).map g = (f b' a).map g) :
    ∀ (l : List α) (b b' : β), g b = g b' → (l.foldlM f b).map g = (l.foldlM f b').map g
  | [], b, b', h => by
      rw [List.foldlM_nil, List.foldlM_nil]
      exact congrArg Except.ok h
  | a :: l, b, b', h => by
      have hround := hf a b b' h
      rw [List.foldlM_cons, List.foldlM_cons, map_bind, map_bind]
      cases hb : f b a with
      | error e =>
          cases hb' : f b' a with
          | error e' =>
              rw [hb, hb'] at hround
              exact congrArg Except.error (Except.error.inj hround)
          | ok b₁' =>
              rw [hb, hb'] at hround
              cases hround
      | ok b₁ =>
          cases hb' : f b' a with
          | error e' =>
              rw [hb, hb'] at hround
              cases hround
          | ok b₁' =>
              rw [hb, hb'] at hround
              exact foldlM_map_eq hf l b₁ b₁' (Except.ok.inj hround)

/-- **A loop ends the program** in the first round that does. -/
theorem foldlM_eq_error {f : β → α → Exec Site β} {e : Fault Site} {l : List α} {b : β} :
    l.foldlM f b = .error e ↔
      ∃ pre a post b', l = pre ++ a :: post ∧ pre.foldlM f b = .ok b' ∧ f b' a = .error e := by
  constructor
  · intro h
    induction l generalizing b with
    | nil => cases h
    | cons a l ih =>
        rw [List.foldlM_cons, bind_eq_error] at h
        rcases h with h | ⟨b₁, h₁, h⟩
        · exact ⟨[], a, l, b, rfl, rfl, h⟩
        · obtain ⟨pre, x, post, b', rfl, hpre, hx⟩ := ih h
          exact ⟨a :: pre, x, post, b', rfl, by rw [List.foldlM_cons, h₁, ok_bind, hpre], hx⟩
  · rintro ⟨pre, a, post, b', rfl, hpre, ha⟩
    rw [List.foldlM_append, hpre, ok_bind, List.foldlM_cons, ha]
    rfl

/-- **A loop gets through exactly if each round can**, when a round that
gets through is a function. -/
theorem foldlM_eq_ok_iff {f : β → α → Exec Site β} {c : α → Prop} {g : β → α → β}
    {l : List α} (hf : ∀ a ∈ l, ∀ b b', f b a = .ok b' ↔ c a ∧ b' = g b a) {b b' : β} :
    l.foldlM f b = .ok b' ↔ (∀ a ∈ l, c a) ∧ b' = l.foldl g b := by
  induction l generalizing b with
  | nil => simp [eq_comm]
  | cons a l ih =>
      have hl : ∀ a ∈ l, ∀ b b', f b a = .ok b' ↔ c a ∧ b' = g b a :=
        fun x hx => hf x (List.mem_cons_of_mem _ hx)
      rw [List.foldlM_cons, bind_eq_ok, List.forall_mem_cons, List.foldl_cons]
      constructor
      · rintro ⟨b₁, h₁, h⟩
        obtain ⟨hc, rfl⟩ := (hf a List.mem_cons_self b b₁).1 h₁
        obtain ⟨hcs, hb⟩ := (ih hl).1 h
        exact ⟨⟨hc, hcs⟩, hb⟩
      · rintro ⟨⟨hc, hcs⟩, hb⟩
        exact ⟨g b a, (hf a List.mem_cons_self b _).2 ⟨hc, rfl⟩, (ih hl).2 ⟨hcs, hb⟩⟩

/-- A loop that gets something for each element. -/
theorem mapM_eq_ok {f : α → Exec Site β} {g : α → β} :
    ∀ {l : List α}, (∀ a ∈ l, f a = .ok (g a)) → l.mapM f = .ok (l.map g)
  | [], _ => rfl
  | a :: l, h => by
      rw [List.mapM_cons, h a List.mem_cons_self, ok_bind,
        mapM_eq_ok fun a ha => h a (List.mem_cons_of_mem _ ha)]
      rfl

/-- It gets something for each when it gets through. -/
theorem forall_of_mapM {f : α → Exec Site β} :
    ∀ {l : List α} {bs : List β}, l.mapM f = .ok bs → ∀ a ∈ l, ∃ b, f a = .ok b
  | [], _, _ => fun a ha => absurd ha List.not_mem_nil
  | a :: l, bs, h => by
      rw [List.mapM_cons] at h
      obtain ⟨b, hb, h⟩ := bind_eq_ok.1 h
      obtain ⟨bs', hl, -⟩ := bind_eq_ok.1 h
      intro x hx
      rcases List.mem_cons.1 hx with rfl | hx
      · exact ⟨b, hb⟩
      · exact forall_of_mapM hl x hx

/-- What it gets for the element in a place is in the same place. -/
theorem getElem?_of_mapM {f : α → Exec Site β} : ∀ {l : List α} {bs : List β} {i : ℕ} {a : α},
    l.mapM f = .ok bs → l[i]? = some a → ∃ b, bs[i]? = some b ∧ f a = .ok b
  | [], _, _, _ => fun _ hi => by cases hi
  | a :: l, bs, i, x => fun h hi => by
      rw [List.mapM_cons] at h
      obtain ⟨b, hb, h⟩ := bind_eq_ok.1 h
      obtain ⟨bs', hl, h⟩ := bind_eq_ok.1 h
      obtain rfl := Except.ok.inj h
      cases i with
      | zero =>
          obtain rfl : a = x := Option.some.inj hi
          exact ⟨b, rfl, hb⟩
      | succ i =>
          rw [List.getElem?_cons_succ] at hi ⊢
          exact getElem?_of_mapM hl hi

theorem atIndex_eq_ok {l : List α} {n : ℕ} {a : α} (h : l[n]? = some a) :
    (atIndex l n : Exec Site α) = .ok a := by
  simp [atIndex, h]

/-! ## Faults that do not happen -/

/-- The program does not end here with the fault `e`. -/
def Spares (e : Fault Site) (x : Exec Site α) : Prop := x ≠ .error e

section

variable {e : Fault Site} {x : Exec Site α} {f : α → Exec Site β} {site' : Site}

@[simp] theorem spares_ok {a : α} : Spares e (.ok a : Exec Site α) := by simp [Spares]

@[simp] theorem spares_error {e' : Fault Site} :
    Spares e (.error e' : Exec Site α) ↔ e' ≠ e := by
  simp [Spares]

/-- **A sequence of calls is spared a fault** when each of them is. -/
@[simp] theorem spares_bind :
    Spares e (x >>= f) ↔ Spares e x ∧ ∀ a, x = .ok a → Spares e (f a) := by
  simp [Spares, bind_eq_error]

theorem spares_ensure (h : site' ≠ site) : Spares (.assertion site) (ensure p site') := by
  unfold ensure
  split
  · exact spares_ok
  · simpa using h

@[simp] theorem spares_deref {o : Option α} : Spares (.assertion site) (deref o) := by
  cases o <;> simp [deref]

@[simp] theorem spares_atIndex {l : List α} {i : ℤ} :
    Spares (.assertion site) (atIndex l i) := by
  unfold atIndex
  split <;> simp

/-- A loop is spared what its body is. -/
theorem spares_foldlM {g : β → α → Exec Site β} (hg : ∀ b a, Spares e (g b a)) :
    ∀ (l : List α) (b : β), Spares e (l.foldlM g b)
  | [], _ => spares_ok
  | a :: l, b => spares_bind.2 ⟨hg b a, fun b' _ => spares_foldlM hg l b'⟩

end

end Exec

end Twstools
