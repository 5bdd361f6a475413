import UsageDiary.Zone.Basic

/-!
# Zones of Europe and the Atlantic

The offset of each zone at 1970-01-01 and its changes up to 2038, as pairs of
a second of universal time and the offset in seconds from then on.
-/

namespace UsageDiary.Zone

/-- The zone `Europe/Amsterdam`. -/
def amsterdam : Zone where
  name := "Europe/Amsterdam"
  base := 3600
  changes := [
    ⟨228877200, 7200⟩, ⟨243997200, 3600⟩, ⟨260326800, 7200⟩, ⟨276051600, 3600⟩, ⟨291776400, 7200⟩,
    ⟨307501200, 3600⟩, ⟨323830800, 7200⟩, ⟨338950800, 3600⟩, ⟨354675600, 7200⟩, ⟨370400400, 3600⟩,
    ⟨386125200, 7200⟩, ⟨401850000, 3600⟩, ⟨417574800, 7200⟩, ⟨433299600, 3600⟩, ⟨449024400, 7200⟩,
    ⟨465354000, 3600⟩, ⟨481078800, 7200⟩, ⟨496803600, 3600⟩, ⟨512528400, 7200⟩, ⟨528253200, 3600⟩,
    ⟨543978000, 7200⟩, ⟨559702800, 3600⟩, ⟨575427600, 7200⟩, ⟨591152400, 3600⟩, ⟨606877200, 7200⟩,
    ⟨622602000, 3600⟩, ⟨638326800, 7200⟩, ⟨654656400, 3600⟩, ⟨670381200, 7200⟩, ⟨686106000, 3600⟩,
    ⟨701830800, 7200⟩, ⟨717555600, 3600⟩, ⟨733280400, 7200⟩, ⟨749005200, 3600⟩, ⟨764730000, 7200⟩,
    ⟨780454800, 3600⟩, ⟨796179600, 7200⟩, ⟨811904400, 3600⟩, ⟨828234000, 7200⟩, ⟨846378000, 3600⟩,
    ⟨859683600, 7200⟩, ⟨877827600, 3600⟩, ⟨891133200, 7200⟩, ⟨909277200, 3600⟩, ⟨922582800, 7200⟩,
    ⟨941331600, 3600⟩, ⟨954032400, 7200⟩, ⟨972781200, 3600⟩, ⟨985482000, 7200⟩,
    ⟨1004230800, 3600⟩, ⟨1017536400, 7200⟩, ⟨1035680400, 3600⟩, ⟨1048986000, 7200⟩,
    ⟨1067130000, 3600⟩, ⟨1080435600, 7200⟩, ⟨1099184400, 3600⟩, ⟨1111885200, 7200⟩,
    ⟨1130634000, 3600⟩, ⟨1143334800, 7200⟩, ⟨1162083600, 3600⟩, ⟨1174784400, 7200⟩,
    ⟨1193533200, 3600⟩, ⟨1206838800, 7200⟩, ⟨1224982800, 3600⟩, ⟨1238288400, 7200⟩,
    ⟨1256432400, 3600⟩, ⟨1269738000, 7200⟩, ⟨1288486800, 3600⟩, ⟨1301187600, 7200⟩,
    ⟨1319936400, 3600⟩, ⟨1332637200, 7200⟩, ⟨1351386000, 3600⟩, ⟨1364691600, 7200⟩,
    ⟨1382835600, 3600⟩, ⟨1396141200, 7200⟩, ⟨1414285200, 3600⟩, ⟨1427590800, 7200⟩,
    ⟨1445734800, 3600⟩, ⟨1459040400, 7200⟩, ⟨1477789200, 3600⟩, ⟨1490490000, 7200⟩,
    ⟨1509238800, 3600⟩, ⟨1521939600, 7200⟩, ⟨1540688400, 3600⟩, ⟨1553994000, 7200⟩,
    ⟨1572138000, 3600⟩, ⟨1585443600, 7200⟩, ⟨1603587600, 3600⟩, ⟨1616893200, 7200⟩,
    ⟨1635642000, 3600⟩, ⟨1648342800, 7200⟩, ⟨1667091600, 3600⟩, ⟨1679792400, 7200⟩,
    ⟨1698541200, 3600⟩, ⟨1711846800, 7200⟩, ⟨1729990800, 3600⟩, ⟨1743296400, 7200⟩,
    ⟨1761440400, 3600⟩, ⟨1774746000, 7200⟩, ⟨1792890000, 3600⟩, ⟨1806195600, 7200⟩,
    ⟨1824944400, 3600⟩, ⟨1837645200, 7200⟩, ⟨1856394000, 3600⟩, ⟨1869094800, 7200⟩,
    ⟨1887843600, 3600⟩, ⟨1901149200, 7200⟩, ⟨1919293200, 3600⟩, ⟨1932598800, 7200⟩,
    ⟨1950742800, 3600⟩, ⟨1964048400, 7200⟩, ⟨1982797200, 3600⟩, ⟨1995498000, 7200⟩,
    ⟨2014246800, 3600⟩, ⟨2026947600, 7200⟩, ⟨2045696400, 3600⟩, ⟨2058397200, 7200⟩,
    ⟨2077146000, 3600⟩, ⟨2090451600, 7200⟩, ⟨2108595600, 3600⟩, ⟨2121901200, 7200⟩,
    ⟨2140045200, 3600⟩]

/-- The zone `Europe/London`. -/
def london : Zone where
  name := "Europe/London"
  base := 3600
  changes := [
    ⟨57718800, 0⟩, ⟨69818400, 3600⟩, ⟨89172000, 0⟩, ⟨101268000, 3600⟩, ⟨120621600, 0⟩,
    ⟨132717600, 3600⟩, ⟨152071200, 0⟩, ⟨164167200, 3600⟩, ⟨183520800, 0⟩, ⟨196221600, 3600⟩,
    ⟨214970400, 0⟩, ⟨227671200, 3600⟩, ⟨246420000, 0⟩, ⟨259120800, 3600⟩, ⟨278474400, 0⟩,
    ⟨290570400, 3600⟩, ⟨309924000, 0⟩, ⟨322020000, 3600⟩, ⟨341373600, 0⟩, ⟨354675600, 3600⟩,
    ⟨372819600, 0⟩, ⟨386125200, 3600⟩, ⟨404269200, 0⟩, ⟨417574800, 3600⟩, ⟨435718800, 0⟩,
    ⟨449024400, 3600⟩, ⟨467773200, 0⟩, ⟨481078800, 3600⟩, ⟨499222800, 0⟩, ⟨512528400, 3600⟩,
    ⟨530672400, 0⟩, ⟨543978000, 3600⟩, ⟨562122000, 0⟩, ⟨575427600, 3600⟩, ⟨593571600, 0⟩,
    ⟨606877200, 3600⟩, ⟨625626000, 0⟩, ⟨638326800, 3600⟩, ⟨657075600, 0⟩, ⟨670381200, 3600⟩,
    ⟨688525200, 0⟩, ⟨701830800, 3600⟩, ⟨719974800, 0⟩, ⟨733280400, 3600⟩, ⟨751424400, 0⟩,
    ⟨764730000, 3600⟩, ⟨782874000, 0⟩, ⟨796179600, 3600⟩, ⟨814323600, 0⟩, ⟨828234000, 3600⟩,
    ⟨846378000, 0⟩, ⟨859683600, 3600⟩, ⟨877827600, 0⟩, ⟨891133200, 3600⟩, ⟨909277200, 0⟩,
    ⟨922582800, 3600⟩, ⟨941331600, 0⟩, ⟨954032400, 3600⟩, ⟨972781200, 0⟩, ⟨985482000, 3600⟩,
    ⟨1004230800, 0⟩, ⟨1017536400, 3600⟩, ⟨1035680400, 0⟩, ⟨1048986000, 3600⟩, ⟨1067130000, 0⟩,
    ⟨1080435600, 3600⟩, ⟨1099184400, 0⟩, ⟨1111885200, 3600⟩, ⟨1130634000, 0⟩, ⟨1143334800, 3600⟩,
    ⟨1162083600, 0⟩, ⟨1174784400, 3600⟩, ⟨1193533200, 0⟩, ⟨1206838800, 3600⟩, ⟨1224982800, 0⟩,
    ⟨1238288400, 3600⟩, ⟨1256432400, 0⟩, ⟨1269738000, 3600⟩, ⟨1288486800, 0⟩, ⟨1301187600, 3600⟩,
    ⟨1319936400, 0⟩, ⟨1332637200, 3600⟩, ⟨1351386000, 0⟩, ⟨1364691600, 3600⟩, ⟨1382835600, 0⟩,
    ⟨1396141200, 3600⟩, ⟨1414285200, 0⟩, ⟨1427590800, 3600⟩, ⟨1445734800, 0⟩, ⟨1459040400, 3600⟩,
    ⟨1477789200, 0⟩, ⟨1490490000, 3600⟩, ⟨1509238800, 0⟩, ⟨1521939600, 3600⟩, ⟨1540688400, 0⟩,
    ⟨1553994000, 3600⟩, ⟨1572138000, 0⟩, ⟨1585443600, 3600⟩, ⟨1603587600, 0⟩, ⟨1616893200, 3600⟩,
    ⟨1635642000, 0⟩, ⟨1648342800, 3600⟩, ⟨1667091600, 0⟩, ⟨1679792400, 3600⟩, ⟨1698541200, 0⟩,
    ⟨1711846800, 3600⟩, ⟨1729990800, 0⟩, ⟨1743296400, 3600⟩, ⟨1761440400, 0⟩, ⟨1774746000, 3600⟩,
    ⟨1792890000, 0⟩, ⟨1806195600, 3600⟩, ⟨1824944400, 0⟩, ⟨1837645200, 3600⟩, ⟨1856394000, 0⟩,
    ⟨1869094800, 3600⟩, ⟨1887843600, 0⟩, ⟨1901149200, 3600⟩, ⟨1919293200, 0⟩, ⟨1932598800, 3600⟩,
    ⟨1950742800, 0⟩, ⟨1964048400, 3600⟩, ⟨1982797200, 0⟩, ⟨1995498000, 3600⟩, ⟨2014246800, 0⟩,
    ⟨2026947600, 3600⟩, ⟨2045696400, 0⟩, ⟨2058397200, 3600⟩, ⟨2077146000, 0⟩, ⟨2090451600, 3600⟩,
    ⟨2108595600, 0⟩, ⟨2121901200, 3600⟩, ⟨2140045200, 0⟩]

/-- The zone `Atlantic/Azores`. -/
def azores : Zone where
  name := "Atlantic/Azores"
  base := -3600
  changes := [
    ⟨228272400, 0⟩, ⟨243997200, -3600⟩, ⟨260326800, 0⟩, ⟨276051600, -3600⟩, ⟨291776400, 0⟩,
    ⟨307504800, -3600⟩, ⟨323226000, 0⟩, ⟨338954400, -3600⟩, ⟨354679200, 0⟩, ⟨370404000, -3600⟩,
    ⟨386128800, 0⟩, ⟨401853600, -3600⟩, ⟨417582000, 0⟩, ⟨433303200, -3600⟩, ⟨449028000, 0⟩,
    ⟨465357600, -3600⟩, ⟨481082400, 0⟩, ⟨496807200, -3600⟩, ⟨512532000, 0⟩, ⟨528256800, -3600⟩,
    ⟨543981600, 0⟩, ⟨559706400, -3600⟩, ⟨575431200, 0⟩, ⟨591156000, -3600⟩, ⟨606880800, 0⟩,
    ⟨622605600, -3600⟩, ⟨638330400, 0⟩, ⟨654660000, -3600⟩, ⟨670384800, 0⟩, ⟨686109600, -3600⟩,
    ⟨701834400, 0⟩, ⟨749005200, -3600⟩, ⟨764730000, 0⟩, ⟨780454800, -3600⟩, ⟨796179600, 0⟩,
    ⟨811904400, -3600⟩, ⟨828234000, 0⟩, ⟨846378000, -3600⟩, ⟨859683600, 0⟩, ⟨877827600, -3600⟩,
    ⟨891133200, 0⟩, ⟨909277200, -3600⟩, ⟨922582800, 0⟩, ⟨941331600, -3600⟩, ⟨954032400, 0⟩,
    ⟨972781200, -3600⟩, ⟨985482000, 0⟩, ⟨1004230800, -3600⟩, ⟨1017536400, 0⟩, ⟨1035680400, -3600⟩,
    ⟨1048986000, 0⟩, ⟨1067130000, -3600⟩, ⟨1080435600, 0⟩, ⟨1099184400, -3600⟩, ⟨1111885200, 0⟩,
    ⟨1130634000, -3600⟩, ⟨1143334800, 0⟩, ⟨1162083600, -3600⟩, ⟨1174784400, 0⟩,
    ⟨1193533200, -3600⟩, ⟨1206838800, 0⟩, ⟨1224982800, -3600⟩, ⟨1238288400, 0⟩,
    ⟨1256432400, -3600⟩, ⟨1269738000, 0⟩, ⟨1288486800, -3600⟩, ⟨1301187600, 0⟩,
    ⟨1319936400, -3600⟩, ⟨1332637200, 0⟩, ⟨1351386000, -3600⟩, ⟨1364691600, 0⟩,
    ⟨1382835600, -3600⟩, ⟨1396141200, 0⟩, ⟨1414285200, -3600⟩, ⟨1427590800, 0⟩,
    ⟨1445734800, -3600⟩, ⟨1459040400, 0⟩, ⟨1477789200, -3600⟩, ⟨1490490000, 0⟩,
    ⟨1509238800, -3600⟩, ⟨1521939600, 0⟩, ⟨1540688400, -3600⟩, ⟨1553994000, 0⟩,
    ⟨1572138000, -3600⟩, ⟨1585443600, 0⟩, ⟨1603587600, -3600⟩, ⟨1616893200, 0⟩,
    ⟨1635642000, -3600⟩, ⟨1648342800, 0⟩, ⟨1667091600, -3600⟩, ⟨1679792400, 0⟩,
    ⟨1698541200, -3600⟩, ⟨1711846800, 0⟩, ⟨1729990800, -3600⟩, ⟨1743296400, 0⟩,
    ⟨1761440400, -3600⟩, ⟨1774746000, 0⟩, ⟨1792890000, -3600⟩, ⟨1806195600, 0⟩,
    ⟨1824944400, -3600⟩, ⟨1837645200, 0⟩, ⟨1856394000, -3600⟩, ⟨1869094800, 0⟩,
    ⟨1887843600, -3600⟩, ⟨1901149200, 0⟩, ⟨1919293200, -3600⟩, ⟨1932598800, 0⟩,
    ⟨1950742800, -3600⟩, ⟨1964048400, 0⟩, ⟨1982797200, -3600⟩, ⟨1995498000, 0⟩,
    ⟨2014246800, -3600⟩, ⟨2026947600, 0⟩, ⟨2045696400, -3600⟩, ⟨2058397200, 0⟩,
    ⟨2077146000, -3600⟩, ⟨2090451600, 0⟩, ⟨2108595600, -3600⟩, ⟨2121901200, 0⟩, ⟨2140045200, -3600⟩]

end UsageDiary.Zone
