import DexCensus.Dex.EncodedValue.Canonical
import DexCensus.Dex.EncodedValue.Depth
import DexCensus.Main
import DexCensus.Proofs.Reader.Exact
import DexCensus.Proofs.Uleb128
import DexCensus.Proofs.EncodedValue.Exact
import DexCensus.Proofs.Reader.Local
import DexCensus.Proofs.Truncation.Segment
import DexCensus.Proofs.Truncation.Discovery
import DexCensus.Proofs.Descriptor
import DexCensus.Proofs.JUnit3.Closure
import DexCensus.Proofs.JUnit4.Ancestry
import DexCensus.Proofs.JUnit4.Completion
import DexCensus.Proofs.JUnit4.Cycle
import DexCensus.Proofs.JUnit4.Rehoming
import DexCensus.Proofs.JUnit4.InheritedTest
import DexCensus.Proofs.Arrangement.Definition
import DexCensus.Proofs.NameOrder
import DexCensus.Proofs.Arrangement.JUnit3
import DexCensus.Proofs.Arrangement.JUnit4
import DexCensus.Proofs.Arrangement.Discovery
import DexCensus.Proofs.Reader.SelfDelimiting
import DexCensus.Proofs.ErrorOrigin
import DexCensus.Proofs.JUnit4.Repetition
import DexCensus.Proofs.Repetition
import DexCensus.Proofs.Markers
import DexCensus.Proofs.JUnit4.Redefinition
import DexCensus.Proofs.Container
import DexCensus.Proofs.Text.Utf8
import DexCensus.Proofs.Text.ModifiedUtf8
import DexCensus.Proofs.StringData
import DexCensus.Proofs.EncodedValue.Canonical
import DexCensus.Proofs.ClassData
import DexCensus.Proofs.Inheritance
import DexCensus.Proofs.Resolution
import DexCensus.Proofs.JUnit4.OwnTests
import DexCensus.Proofs.AnnotationSet
import DexCensus.Proofs.Package
import DexCensus.Proofs.Identity
import DexCensus.Proofs.ProperTests
import DexCensus.Proofs.Hashing
import DexCensus.Proofs.Text.Utf8Order
import DexCensus.Proofs.JUnit4.DiscoveryOrder
import DexCensus.Proofs.MergedOrder
import DexCensus.Proofs.Uleb128.Decoding
import DexCensus.Proofs.EncodedValue.Recursion
import DexCensus.Proofs.JUnit3.Rescanning
import DexCensus.Proofs.Decimal.Rounding
import DexCensus.Proofs.Decimal.Numeral
import DexCensus.Proofs.Json
import DexCensus.Proofs.Report
import DexCensus.Proofs.SuperclassLink
import DexCensus.Proofs.Serializer
