import YawnApp.SessionCore.NoteRecovery
import YawnApp.SessionCore.DeletionRepeat
import YawnApp.SessionCore.LibraryOrganization
import YawnApp.SessionCore.VocabularyStore
import YawnApp.Desktop.RetryHighlights
import YawnApp.Capture.CoordinatorAudit
import YawnApp.Worker.SpeechHonesty
import YawnApp.Worker.PromptOverlay
import YawnApp.Desktop.SpeakerProjection
import YawnApp.SessionCore.RevisionWalk
import YawnApp.SessionCore.RetryDiffLayout
import YawnApp.SessionCore.ReceiptAgreement
import YawnApp.Desktop.TranscriptVerdicts
import YawnApp.Capture.PauseAgreement
import YawnApp.SessionCore.VocabularyLongest
import YawnApp.SessionCore.RequestIntegrity
import YawnApp.SessionCore.RetryAccount
import YawnApp.Worker.ProfileDiscardRuns
import YawnApp.Desktop.NoteMoments
import YawnApp.Ink.TranscriptTimeline
import YawnApp.Notes.FragmentCoverage
import YawnApp.Notes.PruneKeeps
import YawnApp.SessionCore.CorpusEmbeddingRuns
import YawnApp.Worker.OperatingPoints
import YawnApp.Worker.SpeechAlignment
import YawnApp.Capture.CaptureFinalization
import YawnApp.Desktop.DomPatchKeyed
import YawnApp.Desktop.LibraryHandleRuns
import YawnApp.Desktop.OperatorNote
import YawnApp.Capture.SittingExact
import YawnApp.SessionCore.MeetingCoordination
import YawnApp.SessionCore.RetentionRuns
