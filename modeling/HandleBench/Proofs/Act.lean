import HandleBench.Call

/-!
# How acts end

An act that is carried out in a state ends in one of two ways, and what is shown about acts says
which states and values it can yield and where it can stop: `Act.Ends`. For an act made of others it
reduces to the same question about its parts, so a statement about a whole call comes from one lemma
for each act in it.

A stop is *fair* if it is the library that stops: it refuses, or a backend panics. The other stops
happen only to a host that hands in a pointer to something else than its handle claims.
-/

namespace HandleBench

/-- The library stops of its own accord: it refuses, or a backend panics. -/
def Stop.Fair : Stop → Prop
  | .refused _ | .panicked _ => True
  | .released | .misread => False

namespace Act

variable {σ ρ τ α β : Type}

/-- Carried out in `s`, the act yields a value and a state as `yields` says, or stops as `stops`
says. -/
def Ends (act : Act σ α) (s : σ) (yields : α → σ → Prop) (stops : Stop → σ → Prop) : Prop :=
  match act s with
  | (.ok a, s') => yields a s'
  | (.error reason, s') => stops reason s'

section Rules

variable {s s' : σ} {a : α} {reason : Stop} {yields yields' : α → σ → Prop}
  {stops stops' : Stop → σ → Prop} {act : Act σ α}

theorem Ends.of_ok (h : act.Ends s yields stops) (ha : act s = (.ok a, s')) : yields a s' := by
  simpa only [Ends, ha] using h

theorem Ends.of_error (h : act.Ends s yields stops) (hs : act s = (.error reason, s')) :
    stops reason s' := by
  simpa only [Ends, hs] using h

theorem Ends.mono (h : act.Ends s yields stops) (hy : ∀ a s', yields a s' → yields' a s')
    (hs : ∀ reason s', stops reason s' → stops' reason s') : act.Ends s yields' stops' := by
  unfold Ends at h ⊢
  split at h
  · exact hy _ _ h
  · exact hs _ _ h

theorem ends_of_eq_ok (h : act s = (.ok a, s')) (hy : yields a s') : act.Ends s yields stops := by
  simpa only [Ends, h] using hy

theorem ends_of_eq_error (h : act s = (.error reason, s')) (hs : stops reason s') :
    act.Ends s yields stops := by
  simpa only [Ends, h] using hs

/-- What is shown of every end that an act has from a state is shown of the act. -/
theorem ends_of_forall (hy : ∀ a s', act s = (.ok a, s') → yields a s')
    (hs : ∀ reason s', act s = (.error reason, s') → stops reason s') :
    act.Ends s yields stops := by
  unfold Ends
  split
  · next h => exact hy _ _ h
  · next h => exact hs _ _ h

theorem ends_ofExcept {e : Except Failure α} (hy : ∀ a, e = .ok a → yields a s)
    (hs : ∀ failure, e = .error failure → stops (.refused failure) s) :
    (ofExcept e : Act σ α).Ends s yields stops := by
  cases e with
  | ok a => exact hy a rfl
  | error failure => exact hs failure rfl

/-- An act after another ends as it does from wherever the first has led. -/
@[simp] theorem ends_bind {next : α → Act σ β} {yields : β → σ → Prop} :
    (act >>= next).Ends s yields stops ↔
      act.Ends s (fun a s' => (next a).Ends s' yields stops) stops := by
  unfold Ends
  rw [bind_apply]
  cases act s with
  | mk result s' => cases result <;> rfl

/-- What is computed from the value of an act comes where the value comes. -/
theorem Ends.map {f : α → β} {yields : β → σ → Prop}
    (h : act.Ends s (fun a s' => yields (f a) s') stops) :
    (do return f (← act) : Act σ β).Ends s yields stops :=
  ends_bind.2 h

/-- Looking first, an act ends as what follows. -/
theorem ends_bind_look {f : σ → β} {next : β → Act σ α} (h : (next (f s)).Ends s yields stops) :
    (look f >>= next).Ends s yields stops := h

end Rules

theorem bind_pure_id (act : Act σ α) : (act >>= fun a => pure a) = act := by
  funext s
  rw [bind_apply]
  cases act s with
  | mk result s' => cases result <;> rfl

theorem bind_bind {γ : Type} (act : Act σ α) (next : α → Act σ β) (last : β → Act σ γ) :
    act >>= next >>= last = act >>= fun a => next a >>= last := by
  funext s
  simp only [bind_apply]
  cases act s with
  | mk result s' => cases result <;> rfl

/-- What the last of two acts yields, wherever the first has led. -/
theorem ends_bind_of_last {next : α → Act σ β} {s : σ} {act : Act σ α} {yields : β → σ → Prop}
    (h : ∀ a s', (next a).Ends s' yields fun _ _ => True) :
    (act >>= next).Ends s yields fun _ _ => True :=
  ends_bind.2 (ends_of_forall (fun a s' _ => h a s') fun _ _ _ => trivial)

instance : LawfulMonad (Act σ) :=
  LawfulMonad.mk' _ bind_pure_id (fun _ _ => rfl) bind_bind

/-! ### All or nothing -/

/-- Carried out in `s`, the act yields as `yields` says, or it stops and leaves `s` as it is.
Provided the host is honest, it stops only of its own accord. -/
def Atomic (act : Act σ α) (s : σ) (honest : Prop) (yields : α → σ → Prop) : Prop :=
  act.Ends s yields fun reason s' => s' = s ∧ (honest → reason.Fair)

section Atomic

variable {s : σ} {honest honest' : Prop} {a : α} {yields yields' : α → σ → Prop} {act : Act σ α}

theorem Atomic.mono (h : act.Atomic s honest yields) (hh : honest' → honest)
    (hy : ∀ a s', yields a s' → yields' a s') : act.Atomic s honest' yields' :=
  Ends.mono h hy fun _ _ ⟨hs, hf⟩ => ⟨hs, fun hh' => hf (hh hh')⟩

theorem atomic_pure (h : yields a s) : (pure a : Act σ α).Atomic s honest yields := h

theorem atomic_refuse {failure : Failure} : (refuse failure : Act σ α).Atomic s honest yields :=
  ⟨rfl, fun _ => trivial⟩

theorem atomic_ofExcept {e : Except Failure α} (h : ∀ a, e = .ok a → yields a s) :
    (ofExcept e).Atomic s honest yields :=
  ends_ofExcept h fun _ _ => ⟨rfl, fun _ => trivial⟩

/-- An act that only looks leaves it to what follows whether anything changes. -/
theorem Atomic.bind {looks : α → Prop} {next : α → Act σ β} {yields : β → σ → Prop}
    (h : act.Atomic s honest fun a s' => s' = s ∧ looks a)
    (hn : ∀ a, looks a → (next a).Atomic s honest yields) :
    (act >>= next).Atomic s honest yields := by
  refine ends_bind.2 (Ends.mono h ?_ fun _ _ hs => hs)
  rintro a s' ⟨rfl, ha⟩
  exact hn a ha

theorem Atomic.bind_ofExcept {e : Except Failure α} {next : α → Act σ β} {yields : β → σ → Prop}
    (hn : ∀ a, e = .ok a → (next a).Atomic s honest yields) :
    (ofExcept e >>= next).Atomic s honest yields :=
  Atomic.bind (atomic_ofExcept fun _ ha => ⟨rfl, ha⟩) hn

theorem Atomic.bind_look {f : σ → α} {next : α → Act σ β} {yields : β → σ → Prop}
    (hn : (next (f s)).Atomic s honest yields) : (look f >>= next).Atomic s honest yields := hn

/-- Whatever follows an act is still all or nothing if it never stops. -/
theorem Atomic.andThen {next : α → Act σ β} {yields : β → σ → Prop} {through : α → σ → Prop}
    (h : act.Atomic s honest through)
    (hn : ∀ a s', through a s' → (next a).Ends s' yields fun _ _ => False) :
    (act >>= next).Atomic s honest yields := by
  refine ends_bind.2 (Ends.mono h ?_ fun _ _ hs => hs)
  intro a s' ha
  exact Ends.mono (hn a s' ha) (fun _ _ hb => hb) fun _ _ hf => hf.elim

/-- An act that only looks can be repeated over a list. -/
theorem atomic_mapM {f : α → Act σ β} {xs : List α}
    (h : ∀ x ∈ xs, (f x).Atomic s honest fun _ s' => s' = s) :
    (xs.mapM f).Atomic s honest fun _ s' => s' = s := by
  induction xs with
  | nil => exact atomic_pure rfl
  | cons x xs ih =>
    rw [List.mapM_cons]
    have hx : (f x).Atomic s honest fun _ s' => s' = s ∧ True :=
      (h x List.mem_cons_self).mono id fun _ _ hs => ⟨hs, trivial⟩
    refine Atomic.bind hx fun y _ => ?_
    refine Atomic.andThen (ih fun x' hx' => h x' (List.mem_cons_of_mem x hx')) ?_
    rintro ys s' rfl
    rfl

end Atomic

end Act

/-! ### Acts on a frame -/

namespace Frame

variable {α : Type} {f : Frame} {yields : α → Frame → Prop} {stops : Stop → Frame → Prop}

/-- An act on the world leaves the rest of the frame alone. -/
theorem onWorld_apply (act : Act World α) (f : Frame) :
    onWorld act f = ((act f.world).1, { f with world := (act f.world).2 }) := rfl

@[simp] theorem ends_onWorld {act : Act World α} :
    (onWorld act).Ends f yields stops ↔
      act.Ends f.world (fun a w => yields a { f with world := w })
        (fun reason w => stops reason { f with world := w }) := by
  unfold Act.Ends
  rw [onWorld_apply]
  cases act f.world with
  | mk result w => cases result <;> rfl

theorem onWorld_atomic {act : Act World α} {honest : Prop} {yields : α → World → Prop}
    (h : act.Atomic f.world honest yields) :
    (onWorld act).Atomic f honest fun a f' =>
      f' = { f with world := f'.world } ∧ yields a f'.world := by
  refine ends_onWorld.2 (Act.Ends.mono h (fun a w hy => ⟨rfl, hy⟩) ?_)
  rintro reason w ⟨rfl, hf⟩
  exact ⟨rfl, hf⟩

theorem onWorld_atomic_of_look {act : Act World α} {honest : Prop} {looks : α → Prop}
    (h : act.Atomic f.world honest fun a w => w = f.world ∧ looks a) :
    (onWorld act).Atomic f honest fun a f' => f' = f ∧ looks a := by
  refine (onWorld_atomic h).mono id ?_
  rintro a f' ⟨hf, hw, ha⟩
  rw [hf, hw]
  exact ⟨rfl, ha⟩

end Frame

end HandleBench
