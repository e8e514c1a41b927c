import LocalePages.Log

/-!
# The log only grows

Whatever a run does, it adds entries at the end of its log and never changes the directory the log belongs to. `Log.added` is what
was added since an earlier state of the log.
-/

namespace LocalePages

namespace Log

/-- A log extends another when it belongs to the same directory and starts with the other's entries. -/
def Extends (log log' : Log) : Prop := log'.root = log.root ∧ log.entries <+: log'.entries

/-- The entries of a log that were added since an earlier state of it. -/
def added (before after : Log) : List LogEntry := after.entries.drop before.entries.length

theorem Extends.refl (log : Log) : log.Extends log := ⟨rfl, List.prefix_refl _⟩

theorem Extends.trans {log log' log'' : Log} (h : log.Extends log') (h' : log'.Extends log'') : log.Extends log'' :=
  ⟨h'.1.trans h.1, h.2.trans h'.2⟩

/-- Logs that extend each other are the same. -/
theorem Extends.antisymm {log log' : Log} (h : log.Extends log') (h' : log'.Extends log) : log' = log := by
  obtain ⟨entries, root⟩ := log
  obtain ⟨entries', root'⟩ := log'
  rw [Log.mk.injEq]
  exact ⟨h'.2.eq_of_length_le h.2.length_le, h.1⟩

/-- One more entry extends a log. -/
theorem extends_add (log : Log) (severity : Severity) (message : Text) : log.Extends (log.add severity message) :=
  ⟨rfl, List.prefix_append _ _⟩

/-- One more entry is a change. -/
theorem add_ne (log : Log) (severity : Severity) (message : Text) : log.add severity message ≠ log := by
  intro h
  have hlength := congrArg (fun l => l.entries.length) h
  simp [add] at hlength

/-- A log writes a message as every log does that belongs to the same directory. -/
theorem shortened_of_extends {log log' : Log} (h : log.Extends log') (message : Text) :
    log'.shortened message = log.shortened message := by
  simp only [shortened, h.1]

/-- An entry stays among the added ones. -/
theorem Extends.added_mono {log log' log'' : Log} (h : log.Extends log') (h' : log'.Extends log'') {e : LogEntry}
    (he : e ∈ log.added log') : e ∈ log.added log'' := by
  obtain ⟨more, hmore⟩ := h'.2
  simp only [added, ← hmore, List.drop_append_of_le_length h.2.length_le]
  exact List.mem_append_left _ he

/-- What was added since a later state of a log was added since an earlier one. -/
theorem Extends.added_subset {log log' : Log} (h : log.Extends log') (log'' : Log) {e : LogEntry} (he : e ∈ log'.added log'') :
    e ∈ log.added log'' :=
  List.drop_subset_drop_left _ h.2.length_le he

/-- The entry that is added last is among the added ones. -/
theorem mem_added_add {log log' : Log} (h : log.Extends log') (severity : Severity) (message : Text) :
    ⟨severity, log.shortened message⟩ ∈ log.added (log'.add severity message) := by
  simp only [added, add, List.drop_append_of_le_length h.2.length_le, shortened_of_extends h]
  exact List.mem_append_right _ List.mem_cons_self

/-- Nothing was added to a log since itself. -/
theorem added_self (log : Log) : log.added log = [] := List.drop_length

/-! ## The messages of a severity -/

/-- The messages of a severity after one more entry. -/
theorem messages_add (log : Log) (severity asked : Severity) (message : Text) :
    (log.add severity message).messages asked =
      log.messages asked ++ if severity = asked then [log.shortened message] else [] := by
  by_cases h : severity = asked <;> simp [messages, add, h]

/-- A warning is no error. -/
@[simp] theorem messages_error_warning (log : Log) (message : Text) : (log.warning message).messages .error = log.messages .error :=
  (messages_add log .warning .error message).trans (List.append_nil _)

/-- An error is the last message of its severity. -/
@[simp] theorem messages_error_error (log : Log) (message : Text) :
    (log.error message).messages .error = log.messages .error ++ [log.shortened message] :=
  messages_add log .error .error message

/-! ## How many entries there are -/

/-- There are as many entries of a severity as messages. -/
theorem length_messages (log : Log) (severity : Severity) : (log.messages severity).length = log.count severity := by
  rw [messages, List.length_map, count, List.countP_eq_length_filter]

/-- How many entries of a severity there are after one more entry. -/
theorem count_add (log : Log) (severity counted : Severity) (message : Text) :
    (log.add severity message).count counted = log.count counted + if severity = counted then 1 else 0 := by
  simp [count, add]

/-- A piece of information is no error. -/
@[simp] theorem count_error_info (log : Log) (message : Text) : (log.info message).count .error = log.count .error :=
  count_add log .info .error message

/-- A warning is no error. -/
@[simp] theorem count_error_warning (log : Log) (message : Text) : (log.warning message).count .error = log.count .error :=
  count_add log .warning .error message

/-- An error is one more error. -/
@[simp] theorem count_error_error (log : Log) (message : Text) : (log.error message).count .error = log.count .error + 1 :=
  count_add log .error .error message

/-- No entry of a log is lost. -/
theorem Extends.count_le {log log' : Log} (h : log.Extends log') (severity : Severity) : log.count severity ≤ log'.count severity :=
  h.2.sublist.countP_le

end Log

end LocalePages
