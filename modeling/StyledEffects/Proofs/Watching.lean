import StyledEffects.Stream.Trace

/-! What is kept of the calls on a watched stream: one more with each call, in order. -/

namespace StyledEffects

theorem eq_append_cons_of_concat {α : Type} {xs before after : List α} {x last : α}
    (h : xs ++ [last] = before ++ x :: after) :
    (before = xs ∧ x = last ∧ after = []) ∨
      ∃ rest, xs = before ++ x :: rest ∧ after = rest ++ [last] := by
  rcases List.eq_nil_or_concat after with rfl | ⟨rest, y, rfl⟩
  · obtain ⟨rfl, hx⟩ := List.append_inj' h rfl
    exact Or.inl ⟨rfl, (List.singleton_inj.1 hx).symm, rfl⟩
  · have split : xs ++ [last] = (before ++ x :: rest) ++ [y] := by simpa using h
    obtain ⟨hxs, he⟩ := List.append_inj' split rfl
    obtain rfl := List.singleton_inj.1 he
    exact Or.inr ⟨rest, hxs, List.concat_eq_append⟩

namespace Watched

variable {σ : Type}

def failure? (w : Watched σ) : Option DeviceError := w.calls.findSome? Call.error?

@[simp] theorem calls_new (s : σ) : (Watched.new s).calls = [] := rfl

@[simp] theorem writes_new (s : σ) : (Watched.new s).writes = [] := rfl

@[simp] theorem failure?_new (s : σ) : (Watched.new s).failure? = none := rfl

variable [OutputStream σ]

@[simp] theorem calls_write (text : String) (w : Watched σ) :
    (OutputStream.write text w).2.calls =
      w.calls ++ [.write text (OutputStream.write text w).1] := by
  simp [OutputStream.write, calls]

@[simp] theorem calls_drain (w : Watched σ) :
    (OutputStream.drain w).2.calls = w.calls ++ [.drain (OutputStream.drain w).1] := by
  simp [OutputStream.drain, calls]

@[simp] theorem calls_flush (w : Watched σ) :
    (OutputStream.flush w).2.calls = w.calls ++ [.flush (OutputStream.flush w).1] := by
  simp [OutputStream.flush, calls]

@[simp] theorem writes_write (text : String) (w : Watched σ) :
    (OutputStream.write text w).2.writes = w.writes ++ [text] := by
  simp [writes, Call.written?]

@[simp] theorem writes_drain (w : Watched σ) :
    (OutputStream.drain w).2.writes = w.writes := by
  simp [writes, Call.written?]

@[simp] theorem writes_flush (w : Watched σ) :
    (OutputStream.flush w).2.writes = w.writes := by
  simp [writes, Call.written?]

@[simp] theorem failure?_write (text : String) (w : Watched σ) :
    (OutputStream.write text w).2.failure? = w.failure? := by
  simp [failure?, Call.error?]

@[simp] theorem failure?_drain (w : Watched σ) : (OutputStream.drain w).2.failure? =
    w.failure?.or (Call.drain (OutputStream.drain w).1).error? := by
  simp [failure?]

@[simp] theorem failure?_flush (w : Watched σ) : (OutputStream.flush w).2.failure? =
    w.failure?.or (Call.flush (OutputStream.flush w).1).error? := by
  simp [failure?]

end Watched

end StyledEffects
