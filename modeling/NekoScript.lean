import NekoScript.JSClass
import NekoScript.JSClassLifetime
import NekoScript.DuktapeStrings
import NekoScript.DuktapeValues
import NekoScript.HelperConversions
import NekoScript.StringExchange
import NekoScript.JSFileSystem
import NekoScript.FileContentRoundTrip
import NekoScript.FileNaming
import NekoScript.NKWinAPI
import NekoScript.NKWinAPICallFrame
import NekoScript.CSourceText
import NekoScript.GenerateResources
import NekoScript.ResourceLookup
import NekoScript.Programs
import NekoScript.ReentrantCalls
import NekoScript.NKWinTaskDialog
import NekoScript.TaskDialogHost
import NekoScript.TaskDialogRouting
import NekoScript.TaskDialogLiveness
import NekoScript.TaskDialogRuntimeArrays
import NekoScript.MethodContexts
import NekoScript.LoggedReads
import NekoScript.WideStringReads
import NekoScript.ArgumentConversion
import NekoScript.FileFailures
import NekoScript.ProgramText
import NekoScript.ResourceLayout
import NekoScript.ThrowScopes
import NekoScript.ScopedNatives
import NekoScript.ThrowScopeLeaks
import NekoScript.JSClassReceivers
import NekoScript.TaskDialogCloseVeto
import NekoScript.DialogOptions
import NekoScript.TaskDialogConfiguration
import NekoScript.WideStrings
import NekoScript.PathQueries
import NekoScript.EnvironmentBlock
import NekoScript.ActivationLocals
import NekoScript.ValueStackBalance
import NekoScript.ErrorReports
import NekoScript.SequentialReaders
import NekoScript.FunctionBytecode
import NekoScript.BytecodeRoundTrip
import NekoScript.Registries
import NekoScript.EventEmitter
import NekoScript.EmitterRegistries
import NekoScript.EmitterEmissions
import NekoScript.EmitterOnceListeners
import NekoScript.UndisturbedEmissions
import NekoScript.CommandLine
import NekoScript.QuotedWords
import NekoScript.AppMain
import NekoScript.EmbeddedLibraries
import NekoScript.DirectoryListing
import NekoScript.CompileScript
import NekoScript.BitStreams
import NekoScript.LineTables
import NekoScript.ErrorTraces
import NekoScript.DepthLimitedMarking
import NekoScript.MarkAndSweep
import NekoScript.CollectorRuns
import NekoScript.HeapDestruction
