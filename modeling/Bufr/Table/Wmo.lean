import Bufr.Table.Entry

/-!
Entries of the WMO master tables whose meaning is the same in all their versions: stations, time,
place, some common observations, and the classes that operators rely on.
-/

namespace Bufr.Wmo

def elements : List ElementEntry := [
  ⟨1, 1, "Identification", "WMO BLOCK NUMBER", "Numeric", 0, 0, 7⟩,
  ⟨1, 2, "Identification", "WMO STATION NUMBER", "Numeric", 0, 0, 10⟩,
  ⟨1, 15, "Identification", "STATION OR SITE NAME", "CCITT IA5", 0, 0, 160⟩,
  ⟨1, 19, "Identification", "LONG STATION OR SITE NAME", "CCITT IA5", 0, 0, 256⟩,
  ⟨1, 31, "Identification",
    "IDENTIFICATION OF ORIGINATING/GENERATING CENTRE", "Code table", 0, 0, 16⟩,
  ⟨1, 32, "Identification", "GENERATING APPLICATION", "Code table", 0, 0, 8⟩,
  ⟨2, 1, "Instrumentation", "TYPE OF STATION", "Code table", 0, 0, 2⟩,
  ⟨4, 1, "Location (time)", "YEAR", "a", 0, 0, 12⟩,
  ⟨4, 2, "Location (time)", "MONTH", "mon", 0, 0, 4⟩,
  ⟨4, 3, "Location (time)", "DAY", "d", 0, 0, 6⟩,
  ⟨4, 4, "Location (time)", "HOUR", "h", 0, 0, 5⟩,
  ⟨4, 5, "Location (time)", "MINUTE", "min", 0, 0, 6⟩,
  ⟨4, 6, "Location (time)", "SECOND", "s", 0, 0, 6⟩,
  ⟨5, 1, "Location (horizontal - 1)", "LATITUDE (HIGH ACCURACY)", "deg", 5, -9000000, 25⟩,
  ⟨5, 2, "Location (horizontal - 1)", "LATITUDE (COARSE ACCURACY)", "deg", 2, -9000, 15⟩,
  ⟨6, 1, "Location (horizontal - 2)", "LONGITUDE (HIGH ACCURACY)", "deg", 5, -18000000, 26⟩,
  ⟨6, 2, "Location (horizontal - 2)", "LONGITUDE (COARSE ACCURACY)", "deg", 2, -18000, 16⟩,
  ⟨7, 1, "Location (vertical)", "HEIGHT OF STATION", "m", 0, -400, 15⟩,
  ⟨7, 30, "Location (vertical)",
    "HEIGHT OF STATION GROUND ABOVE MEAN SEA LEVEL", "m", 1, -4000, 17⟩,
  ⟨7, 31, "Location (vertical)", "HEIGHT OF BAROMETER ABOVE MEAN SEA LEVEL", "m", 1, -4000, 17⟩,
  ⟨8, 23, "Significance qualifiers", "FIRST-ORDER STATISTICS", "Code table", 0, 0, 6⟩,
  ⟨10, 4, "Non-coordinate location (vertical)", "PRESSURE", "Pa", -1, 0, 14⟩,
  ⟨10, 51, "Non-coordinate location (vertical)",
    "PRESSURE REDUCED TO MEAN SEA LEVEL", "Pa", -1, 0, 14⟩,
  ⟨11, 1, "Wind and turbulence", "WIND DIRECTION", "degree true", 0, 0, 9⟩,
  ⟨11, 2, "Wind and turbulence", "WIND SPEED", "m/s", 1, 0, 12⟩,
  ⟨12, 101, "Temperature", "TEMPERATURE/AIR TEMPERATURE", "K", 2, 0, 16⟩,
  ⟨12, 103, "Temperature", "DEWPOINT TEMPERATURE", "K", 2, 0, 16⟩,
  ⟨13, 3, "Hydrographic and hydrological elements", "RELATIVE HUMIDITY", "%", 0, 0, 7⟩,
  ⟨31, 0, "Data description operator qualifiers",
    "SHORT DELAYED DESCRIPTOR REPLICATION FACTOR", "Numeric", 0, 0, 1⟩,
  ⟨31, 1, "Data description operator qualifiers",
    "DELAYED DESCRIPTOR REPLICATION FACTOR", "Numeric", 0, 0, 8⟩,
  ⟨31, 2, "Data description operator qualifiers",
    "EXTENDED DELAYED DESCRIPTOR REPLICATION FACTOR", "Numeric", 0, 0, 16⟩,
  ⟨31, 21, "Data description operator qualifiers",
    "ASSOCIATED FIELD SIGNIFICANCE", "Code table", 0, 0, 6⟩,
  ⟨31, 31, "Data description operator qualifiers", "DATA PRESENT INDICATOR", "Flag table", 0, 0, 1⟩,
  ⟨33, 2, "Quality information", "QUALITY INFORMATION", "Code table", 0, 0, 2⟩,
  ⟨33, 7, "Quality information", "PER CENT CONFIDENCE", "%", 0, 0, 7⟩]

def sequences : List SequenceEntry := [
  ⟨1, 1, "Location and identification sequences", "WMO block and station numbers",
    [.element 1 1, .element 1 2]⟩,
  ⟨1, 11, "Location and identification sequences", "Year, month, day",
    [.element 4 1, .element 4 2, .element 4 3]⟩,
  ⟨1, 12, "Location and identification sequences", "Hour, minute",
    [.element 4 4, .element 4 5]⟩,
  ⟨1, 13, "Location and identification sequences", "Hour, minute, second",
    [.element 4 4, .element 4 5, .element 4 6]⟩,
  ⟨1, 21, "Location and identification sequences", "Latitude/longitude (high accuracy)",
    [.element 5 1, .element 6 1]⟩]

end Bufr.Wmo
