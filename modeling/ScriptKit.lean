import ScriptKit.Descriptor.Json
import ScriptKit.Diagnostic.Collector
import ScriptKit.Store.Builtins
import ScriptKit.Proofs.TypeGrammar
import ScriptKit.Proofs.TokenLanguage
import ScriptKit.Proofs.TypeLanguage
import ScriptKit.Proofs.LimitFaults
import ScriptKit.Proofs.FirstImpossible
import ScriptKit.Proofs.Character
import ScriptKit.Proofs.Lexeme
import ScriptKit.Proofs.Log
import ScriptKit.Proofs.LogHistory
import ScriptKit.Proofs.Places
import ScriptKit.Proofs.Tiling
import ScriptKit.Proofs.ReadingOrder
import ScriptKit.Proofs.LongestMatch
import ScriptKit.Proofs.TypeText
import ScriptKit.Proofs.Spacing
import ScriptKit.Proofs.Lookahead
import ScriptKit.Proofs.SourceLines
import ScriptKit.Proofs.LineSlices
import ScriptKit.Proofs.LineWise
import ScriptKit.Proofs.Compatibility
import ScriptKit.Proofs.IntegerText
import ScriptKit.Proofs.IntegerConversion
import ScriptKit.Proofs.NumberLine
import ScriptKit.Proofs.NearestNumber
import ScriptKit.Proofs.ByteOrder
import ScriptKit.Proofs.TableOrder
import ScriptKit.Proofs.Collection
import ScriptKit.Proofs.Reach
import ScriptKit.Proofs.Growth
import ScriptKit.Proofs.Levels
import ScriptKit.Proofs.CopyRelation
import ScriptKit.Proofs.Unfolding
import ScriptKit.Proofs.Likeness
import ScriptKit.Proofs.SharedCells
import ScriptKit.Proofs.CopySeparation
import ScriptKit.Proofs.Link
import ScriptKit.Proofs.Calls
import ScriptKit.Proofs.MapHistory
import ScriptKit.Proofs.ScopeChain
import ScriptKit.Proofs.WriteOnce
import ScriptKit.Proofs.MapKinds
import ScriptKit.Proofs.EqualKeys
import ScriptKit.Proofs.IntegerKeys
import ScriptKit.Proofs.Drawing
import ScriptKit.Proofs.Divergence
import ScriptKit.Proofs.TypeLimits
import ScriptKit.Proofs.CaretPlacement
import ScriptKit.Proofs.ContextRows
import ScriptKit.Proofs.RowReading
import ScriptKit.Proofs.Absorption
import ScriptKit.Proofs.Chaining
import ScriptKit.Proofs.FaultReports
import ScriptKit.Proofs.StageReports
import ScriptKit.Proofs.UnknownMembers
import ScriptKit.Proofs.JsonRoundTrip
